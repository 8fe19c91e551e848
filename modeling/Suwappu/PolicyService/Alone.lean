import Suwappu.PolicyService.Caps

/-!
# A call by itself

What a call of the policy engine does when nothing else happens, and that its steps come to this.
`evaluate_monotone`: more policies never make a verdict more permissive, and their order does not
matter. `reserve_again_iff`: a reservation can be repeated just in case the caps have room for it
twice.
-/

namespace Suwappu.PolicyService

open Checked Relation

/-! ### Kill switches -/

inductive KillScope where
  | global
  | org (organizationId : OrganizationId)
  | agent (agentId : AgentId)
deriving DecidableEq

structure PolicyKillSwitch where
  scope : KillScope
  active : Bool
deriving DecidableEq

def PolicyKillSwitch.matches (k : PolicyKillSwitch) (intent : PolicyIntent) : Prop :=
  k.active = true ∧ match k.scope with
    | .global             => True
    | .org organizationId => intent.organizationId = some organizationId
    | .agent agentId      => intent.agentId = some agentId

instance decidableMatches (k : PolicyKillSwitch) (intent : PolicyIntent) :
    Decidable (k.matches intent) := by
  unfold PolicyKillSwitch.matches
  split <;> infer_instance

/-! ### Evaluation -/

section Calls

variable (toLowerCase : String → String) (policies : List Policy) (s : State)
  (intent : PolicyIntent)

/-- What the caps of an intent are checked against. -/
def State.aggregate : Sums := sums (s.policyDecisions.filter fun d => agentFilter intent d) s.now

def evaluate (killSwitches : List PolicyKillSwitch) : State × PolicyVerdict :=
  let rows := activeRows policies intent s.now
  let log (ruling : Ruling) := (s.insertDecision intent ruling none s.now, ruling.decision)
  if intent.organizationId = none ∧ intent.agentId = none then (s, .allow)
  else if ∃ k ∈ killSwitches, k.matches intent then log ⟨.block, none⟩
  else if rows = [] then log ⟨.allow, none⟩
  else
    let ruling := statelessRuling toLowerCase rows intent
    if ruling.decision = .block then log ruling
    else log (capRuling rows intent (s.aggregate intent) ruling)

/-! ### Reservation -/

inductive ReserveResult where
  | reserved (id : ℤ) (created : Bool)
  | blocked
deriving DecidableEq

inductive ReserveError where
  /-- `reserveApprovalAllowance requires an organizationId` -/
  | NoOrganization
deriving DecidableEq

def reserveApprovalAllowance (approvalId : ApprovalId) :
    Except ReserveError (State × ReserveResult) :=
  if intent.organizationId = none then .error .NoOrganization
  else if
    ∃ p ∈ activeRows policies intent s.now, p.exceeded (s.aggregate intent) intent.valueUsd then
    .ok (s, .blocked)
  else if ∃ d ∈ s.policyDecisions, d.approvalId = some approvalId then
    let existing := s.policyDecisions.find? fun d => d.approvalId = some approvalId
    .ok (s, .reserved (existing.elim (-1) fun d => d.id) false)
  else
    .ok (s.insertDecision intent ⟨.allow, none⟩ (some approvalId) s.now, .reserved s.nextId true)

end Calls

/-! ### The steps of a call -/

variable {toLowerCase : String → String} {policies policies' : List Policy} {s s' : State}
  {intent : PolicyIntent} {approvalId : ApprovalId} {killSwitches : List PolicyKillSwitch}
  {p : Proc}

/-- The answer of the query for kill switches, and otherwise one that lets the call go on. -/
def answer (killSwitches : List PolicyKillSwitch) : Proc → Answer
  | .evaluate intent => if ∃ k ∈ killSwitches, k.matches intent then .killed else .none
  | _                => .none

/-- One step of the call, when nothing else happens. -/
def Next (toLowerCase : String → String) (policies : List Policy)
    (killSwitches : List PolicyKillSwitch) (c c' : State × Proc) :
    Prop :=
  step toLowerCase policies c.1 c.2 (answer killSwitches c.2) = .ok c'

lemma insert_release (key : LockKey) (ruling : Ruling) (approvalId : Option ApprovalId)
    (createdAt : Time) :
    ((s.acquire key).insertDecision intent ruling approvalId createdAt).release key =
      s.insertDecision intent ruling approvalId createdAt := by
  unfold State.acquire State.insertDecision State.release
  simp

lemma acquire_release (key : LockKey) : (s.acquire key).release key = s := by
  unfold State.acquire State.release
  simp

lemma next_killed (hscope : ¬ (intent.organizationId = none ∧ intent.agentId = none))
    (hkilled : ∃ k ∈ killSwitches, k.matches intent) :
    Next toLowerCase policies killSwitches (s, .evaluate intent)
      (s, .log intent ⟨.block, none⟩) := by
  have hanswer : answer killSwitches (.evaluate intent) = .killed := if_pos hkilled
  change step toLowerCase policies s (.evaluate intent) (answer killSwitches (.evaluate intent)) = _
  rw [hanswer]
  exact if_neg hscope

lemma next_loadPolicies (hscope : ¬ (intent.organizationId = none ∧ intent.agentId = none))
    (hkilled : ¬ ∃ k ∈ killSwitches, k.matches intent) :
    Next toLowerCase policies killSwitches (s, .evaluate intent) (s, .loadPolicies intent) := by
  have hanswer : answer killSwitches (.evaluate intent) = .none := if_neg hkilled
  change step toLowerCase policies s (.evaluate intent) (answer killSwitches (.evaluate intent)) = _
  rw [hanswer]
  exact if_neg hscope

lemma next_log (ruling : Ruling) : Next toLowerCase policies killSwitches (s, .log intent ruling)
    (s.insertDecision intent ruling none s.now, .returned ruling.decision) :=
  rfl

lemma next_insert (ruling : Ruling) :
    Next toLowerCase policies killSwitches (s.acquire (lockKey intent), .insert intent ruling s.now)
      (s.insertDecision intent ruling none s.now, .returned ruling.decision) := by
  unfold Next
  dsimp only [step, answer]
  rw [insert_release]

/-- From the start of its transaction. -/
lemma steps_begin {rows : List Policy} {pending : Ruling} (hfree : lockKey intent ∉ s.locked) :
    ReflTransGen (Next toLowerCase policies killSwitches) (s, .begin intent rows pending s.now)
      (s.insertDecision intent (capRuling rows intent (s.aggregate intent) pending) none s.now,
        .returned (capRuling rows intent (s.aggregate intent) pending).decision) := by
  have hbegin : Next toLowerCase policies killSwitches (s, .begin intent rows pending s.now)
      (s, .lock intent rows pending s.now s.now) := rfl
  have hlock : Next toLowerCase policies killSwitches (s, .lock intent rows pending s.now s.now)
      (s.acquire (lockKey intent), .sum intent rows pending s.now s.now) := if_neg hfree
  have hsum : Next toLowerCase policies killSwitches
      (s.acquire (lockKey intent), .sum intent rows pending s.now s.now)
      (s.acquire (lockKey intent),
        .insert intent (capRuling rows intent (s.aggregate intent) pending) s.now) := rfl
  exact .head hbegin (.head hlock (.head hsum (.single (next_insert _))))

/-- The steps of an evaluation with the lock free come to its verdict. -/
theorem steps_evaluate (hfree : lockKey intent ∉ s.locked) :
    ReflTransGen (Next toLowerCase policies killSwitches) (s, .evaluate intent)
      ((evaluate toLowerCase policies s intent killSwitches).1,
        .returned (evaluate toLowerCase policies s intent killSwitches).2) := by
  unfold evaluate
  dsimp only
  split_ifs with hscope hkilled hrows hblock
  · exact .single (if_pos hscope)
  · exact .head (next_killed hscope hkilled) (.single (next_log _))
  · have hload : Next toLowerCase policies killSwitches (s, .loadPolicies intent)
        (s, .log intent ⟨.allow, none⟩) := if_pos hrows
    exact .head (next_loadPolicies hscope hkilled) (.head hload (.single (next_log _)))
  · have hload : Next toLowerCase policies killSwitches (s, .loadPolicies intent)
        (s, .log intent (statelessRuling toLowerCase (activeRows policies intent s.now) intent)) :=
      (if_neg hrows).trans (if_pos hblock)
    exact .head (next_loadPolicies hscope hkilled) (.head hload (.single (next_log _)))
  · have hload : Next toLowerCase policies killSwitches (s, .loadPolicies intent) (s, .begin intent
        (activeRows policies intent s.now)
        (statelessRuling toLowerCase (activeRows policies intent s.now) intent) s.now) :=
      (if_neg hrows).trans (if_neg hblock)
    exact .head (next_loadPolicies hscope hkilled) (.head hload (steps_begin hfree))

/-- How a call stands that has reserved, found a reservation or been blocked. -/
def ReserveResult.proc : ReserveResult → Proc
  | .reserved id true => .reserved id.toNat
  | .reserved _ false => .returned .allow
  | .blocked          => .returned .block

/-- The steps of a reservation with the lock free come to its result. -/
theorem steps_reserve {result : ReserveResult} (hfree : lockKey intent ∉ s.locked)
    (h : reserveApprovalAllowance policies s intent approvalId = .ok (s', result)) :
    ReflTransGen (Next toLowerCase policies killSwitches) (s, .reserve intent approvalId)
      (s', result.proc) := by
  unfold reserveApprovalAllowance at h
  have hlock : Next toLowerCase policies killSwitches (s, .reserveLock intent approvalId s.now)
      (s.acquire (lockKey intent), .reserveLoad intent approvalId s.now) := if_neg hfree
  have hload : Next toLowerCase policies killSwitches
      (s.acquire (lockKey intent), .reserveLoad intent approvalId s.now)
      (s.acquire (lockKey intent), .reserveSum intent approvalId (activeRows policies intent s.now)
        s.now s.now) := rfl
  split_ifs at h with hscope hcap hexists
  all_goals
    obtain ⟨organizationId, horganization⟩ := Option.ne_none_iff_exists'.mp hscope
    have hstart : Next toLowerCase policies killSwitches (s, .reserve intent approvalId)
        (s, .reserveLock intent approvalId s.now) := by
      unfold Next
      dsimp only [step, answer]
      rw [horganization]
    refine .head hstart (.head hlock (.head hload ?_))
    obtain ⟨rfl, rfl⟩ := Prod.mk.inj (Except.ok.inj h)
  · have hsum : Next toLowerCase policies killSwitches
        (s.acquire (lockKey intent), .reserveSum intent
          approvalId (activeRows policies intent s.now) s.now s.now)
        ((s.acquire (lockKey intent)).release (lockKey intent), .returned .block) := if_pos hcap
    rw [acquire_release] at hsum
    exact .single hsum
  all_goals
    have hsum : Next toLowerCase policies killSwitches
        (s.acquire (lockKey intent), .reserveSum intent
          approvalId (activeRows policies intent s.now) s.now s.now)
        (s.acquire (lockKey intent), .reserveInsert intent approvalId s.now) := if_neg hcap
    refine .head hsum (.single ?_)
  · have hinsert : Next toLowerCase policies killSwitches
        (s.acquire (lockKey intent), .reserveInsert intent approvalId s.now)
        ((s.acquire (lockKey intent)).release (lockKey intent), .returned .allow) :=
      if_pos hexists
    rwa [acquire_release] at hinsert
  · have hinsert : Next toLowerCase policies killSwitches
        (s.acquire (lockKey intent), .reserveInsert intent approvalId s.now)
        (((s.acquire (lockKey intent)).insertDecision intent ⟨.allow, none⟩ (some approvalId)
          s.now).release (lockKey intent), .reserved s.nextId) := if_neg hexists
    rwa [insert_release] at hinsert

/-! ### More policies -/

/-- How little a verdict permits. -/
def PolicyVerdict.strictness : PolicyVerdict → ℕ
  | .allow            => 0
  | .require_approval => 1
  | .block            => 2

lemma strictness_le_block (verdict : PolicyVerdict) :
    verdict.strictness ≤ PolicyVerdict.block.strictness := by
  cases verdict <;> decide

lemma strictness_injective : Function.Injective PolicyVerdict.strictness := by
  intro verdict verdict' h
  cases verdict <;> cases verdict' <;> first | rfl | cases h

variable {rows rows' : List Policy}

lemma statelessRuling_decision : (statelessRuling toLowerCase rows intent).decision =
    if ∃ p ∈ rows, evalStateless toLowerCase p intent = .block then .block
    else if ∃ p ∈ rows, evalStateless toLowerCase p intent = .approval then .require_approval
    else .allow := by
  unfold statelessRuling
  cases hblock : rows.find? fun p => evalStateless toLowerCase p intent = .block with
  | some p =>
    have hp := List.find?_some hblock
    rw [if_pos ⟨p, List.mem_of_find?_eq_some hblock, of_decide_eq_true hp⟩]
  | none =>
    rw [if_neg (by simpa using hblock)]
    cases happroval : rows.find? fun p => evalStateless toLowerCase p intent = .approval with
    | some p =>
      have hp := List.find?_some happroval
      rw [if_pos ⟨p, List.mem_of_find?_eq_some happroval, of_decide_eq_true hp⟩]
    | none => rw [if_neg (by simpa using happroval)]

lemma capRuling_decision {used : Sums} {pending : Ruling} :
    (capRuling rows intent used pending).decision =
      if ∃ p ∈ rows, p.exceeded used intent.valueUsd then .block else pending.decision := by
  unfold capRuling
  cases hcap : rows.find? fun p => p.exceeded used intent.valueUsd with
  | some p =>
    have hp := List.find?_some hcap
    rw [if_pos ⟨p, List.mem_of_find?_eq_some hcap, of_decide_eq_true hp⟩]
  | none => rw [if_neg (by simpa using hcap)]

/-- Only which policies there are counts. -/
lemma evaluate_verdict : (evaluate toLowerCase policies s intent killSwitches).2 =
    if intent.organizationId = none ∧ intent.agentId = none then .allow
    else if ∃ k ∈ killSwitches, k.matches intent then .block
    else if ∃ p ∈ activeRows policies intent s.now, evalStateless toLowerCase p intent = .block ∨
      p.exceeded (s.aggregate intent) intent.valueUsd then .block
    else if
      ∃ p ∈ activeRows policies intent s.now, evalStateless toLowerCase p intent = .approval then
      .require_approval
    else .allow := by
  unfold evaluate
  dsimp only
  generalize activeRows policies intent s.now = rows
  by_cases hscope : intent.organizationId = none ∧ intent.agentId = none
  · rw [if_pos hscope, if_pos hscope]
  by_cases hkilled : ∃ k ∈ killSwitches, k.matches intent
  · rw [if_neg hscope, if_neg hscope, if_pos hkilled, if_pos hkilled]
  rw [if_neg hscope, if_neg hscope, if_neg hkilled, if_neg hkilled]
  by_cases hrows : rows = []
  · rw [if_pos hrows]
    simp [hrows]
  by_cases hblock : ∃ p ∈ rows, evalStateless toLowerCase p intent = .block
  · have hdecision : (statelessRuling toLowerCase rows intent).decision = .block := by
      rw [statelessRuling_decision, if_pos hblock]
    obtain ⟨p, hp, hstateless⟩ := hblock
    rw [if_neg hrows, if_pos hdecision, if_pos ⟨p, hp, .inl hstateless⟩]
    exact hdecision
  · have hdecision : (statelessRuling toLowerCase rows intent).decision =
        if ∃ p ∈ rows, evalStateless toLowerCase p intent = .approval then .require_approval
        else .allow := by
      rw [statelessRuling_decision, if_neg hblock]
    have hne : (statelessRuling toLowerCase rows intent).decision ≠ .block := by
      rw [hdecision]
      split_ifs <;> decide
    have hcaps : (∃ p ∈ rows, evalStateless toLowerCase p intent = .block ∨
        p.exceeded (s.aggregate intent) intent.valueUsd) ↔
        ∃ p ∈ rows, p.exceeded (s.aggregate intent) intent.valueUsd :=
      ⟨fun ⟨p, hp, h⟩ => ⟨p, hp, h.resolve_left fun hp' => hblock ⟨p, hp, hp'⟩⟩,
        fun ⟨p, hp, h⟩ => ⟨p, hp, .inr h⟩⟩
    rw [if_neg hrows, if_neg hne]
    dsimp only
    rw [capRuling_decision, hdecision]
    simp only [hcaps]

lemma mem_activeRows {q : Policy} {now : Time} :
    q ∈ activeRows policies intent now ↔ q ∈ policies ∧ q.appliesTo intent ∧ q.active now := by
  simp [activeRows, and_comm]

lemma evaluate_strictness_le (h : ∀ q ∈ policies, q ∈ policies') :
    (evaluate toLowerCase policies s intent killSwitches).2.strictness ≤
      (evaluate toLowerCase policies' s intent killSwitches).2.strictness := by
  have hmem : ∀ {P : Policy → Prop}, (∃ q ∈ activeRows policies intent s.now, P q) →
      ∃ q ∈ activeRows policies' intent s.now, P q := by
    rintro P ⟨q, hq, hP⟩
    obtain ⟨hq, hrest⟩ := mem_activeRows.mp hq
    exact ⟨q, mem_activeRows.mpr ⟨h q hq, hrest⟩, hP⟩
  rw [evaluate_verdict, evaluate_verdict]
  by_cases hscope : intent.organizationId = none ∧ intent.agentId = none
  · rw [if_pos hscope, if_pos hscope]
  by_cases hkilled : ∃ k ∈ killSwitches, k.matches intent
  · rw [if_neg hscope, if_neg hscope, if_pos hkilled, if_pos hkilled]
  rw [if_neg hscope, if_neg hscope, if_neg hkilled, if_neg hkilled]
  by_cases hblock : ∃ q ∈ activeRows policies' intent s.now,
      evalStateless toLowerCase q intent = .block ∨
        q.exceeded (s.aggregate intent) intent.valueUsd
  · rw [if_pos hblock]
    exact strictness_le_block _
  rw [if_neg hblock, if_neg fun hblock' => hblock (hmem hblock')]
  by_cases happroval :
    ∃ q ∈ activeRows policies' intent s.now, evalStateless toLowerCase q intent = .approval
  · rw [if_pos happroval]
    split_ifs <;> decide
  · rw [if_neg happroval, if_neg fun happroval' => happroval (hmem happroval')]

/-- The order of the policies does not matter, and no further one makes a verdict more
permissive. -/
theorem evaluate_monotone (toLowerCase : String → String) (s : State) (intent : PolicyIntent)
    (killSwitches : List PolicyKillSwitch) :
    (∀ policies policies', policies.Perm policies' →
      (evaluate toLowerCase policies s intent killSwitches).2 =
        (evaluate toLowerCase policies' s intent killSwitches).2) ∧
    ∀ before after p, (evaluate toLowerCase (before ++ after) s intent killSwitches).2.strictness ≤
      (evaluate toLowerCase (before ++ p :: after) s intent killSwitches).2.strictness := by
  refine ⟨fun policies policies' h => ?_, fun before after p => ?_⟩
  · refine strictness_injective (le_antisymm ?_ ?_)
    · exact evaluate_strictness_le fun q hq => h.mem_iff.mp hq
    · exact evaluate_strictness_le fun q hq => h.mem_iff.mpr hq
  · refine evaluate_strictness_le fun q hq => ?_
    rcases List.mem_append.mp hq with hq | hq
    · exact List.mem_append_left _ hq
    · exact List.mem_append_right _ (List.mem_cons_of_mem _ hq)

/-- A policy that asks for approval, after one with a cap. -/
theorem approval_added :
    (evaluate String.toLower [dailyCap100, { dailyCap100 with approvalMode := .always_ask }]
      ⟨0, [], 0, []⟩ ⟨some 1, none, "", none, none, none, none, 1, none, none⟩ []).2 =
    (evaluate String.toLower [{ dailyCap100 with approvalMode := .always_ask }, dailyCap100]
      ⟨0, [], 0, []⟩ ⟨some 1, none, "", none, none, none, none, 1, none, none⟩ []).2 ∧
    (evaluate String.toLower [dailyCap100] ⟨0, [], 0, []⟩
      ⟨some 1, none, "", none, none, none, none, 1, none, none⟩ []).2.strictness ≤
    (evaluate String.toLower [dailyCap100, { dailyCap100 with approvalMode := .always_ask }]
      ⟨0, [], 0, []⟩ ⟨some 1, none, "", none, none, none, none, 1, none, none⟩ []).2.strictness :=
  ⟨(evaluate_monotone _ _ _ _).1 _ _ (List.Perm.swap _ _ _),
    (evaluate_monotone _ _ _ _).2 [dailyCap100] [] _⟩

/-! ### The same reservation again -/

/-- The sums with one more decision. -/
def Sums.plus (used : Sums) (valueUsd : ℚ≥0) : Sums :=
  ⟨used.daySum + valueUsd, used.hourSum + valueUsd, used.hourCount + 1⟩

/-- The same policies are active at another time, and the same decisions count. -/
def SameWindow (policies : List Policy) (s : State) (intent : PolicyIntent) (t : Time) : Prop :=
  activeRows policies intent t = activeRows policies intent s.now ∧
    { s with now := t }.aggregate intent = s.aggregate intent

/-- A reservation repeated at some times. -/
def retries (policies : List Policy) (intent : PolicyIntent) (approvalId : ApprovalId) :
    State → List Time → Except ReserveError (State × List ReserveResult)
  | s, []      => .ok (s, [])
  | s, t :: ts => do
    let (s, result) ← reserveApprovalAllowance policies { s with now := t } intent approvalId
    let (s, results) ← retries policies intent approvalId s ts
    return (s, result :: results)

/-- Each time the row is found again, and the log stays as it is. -/
def Reentrant (policies : List Policy) (s : State) (intent : PolicyIntent) (approvalId : ApprovalId)
    (id : ℤ) : Prop :=
  ∀ times, (∀ t ∈ times, SameWindow policies s intent t) →
    ∃ s', retries policies intent approvalId s times =
      .ok (s', List.replicate times.length (.reserved id false)) ∧
      s'.policyDecisions = s.policyDecisions

lemma created_ok {id : ℤ}
    (h : reserveApprovalAllowance policies s intent approvalId = .ok (s', .reserved id true)) :
    intent.organizationId ≠ none ∧ (∀ d ∈ s.policyDecisions, d.approvalId ≠ some approvalId) ∧
      s' = s.insertDecision intent ⟨.allow, none⟩ (some approvalId) s.now ∧ id = s.nextId := by
  unfold reserveApprovalAllowance at h
  split_ifs at h with hscope hcap hexists
  · cases h
  · cases h
  · obtain ⟨rfl, hid⟩ := Prod.mk.inj (Except.ok.inj h)
    exact ⟨hscope, fun d hd heq => hexists ⟨d, hd, heq⟩, rfl,
      (ReserveResult.reserved.inj hid).1.symm⟩

/-- The new row counts in the sums of its own intent. -/
lemma aggregate_insert :
    (s.insertDecision intent ⟨.allow, none⟩ (some approvalId) s.now).aggregate intent =
    (s.aggregate intent).plus intent.valueUsd := by
  have hfilter : agentFilter intent ⟨s.nextId, intent.organizationId, intent.agentId, .allow, none,
      intent.valueUsd, some approvalId, s.now⟩ := by
    refine ⟨rfl, ?_⟩
    split_ifs <;> rfl
  have hday : s.now - 24 * hour ≤ s.now := Nat.sub_le _ _
  have hhour : s.now - hour ≤ s.now := Nat.sub_le _ _
  simp [State.aggregate, State.insertDecision, sums, Sums.plus, List.filter_append, hfilter, hday,
    hhour]

/-- What a repeated reservation finds while the window stays the same. -/
lemma reserve_found {id : ℤ} {now : Time} {s₁ : State}
    (h : reserveApprovalAllowance policies s intent approvalId = .ok (s', .reserved id true))
    (hcap : ¬ ∃ q ∈ activeRows policies intent s.now,
      q.exceeded ((s.aggregate intent).plus intent.valueUsd) intent.valueUsd)
    (hnow : SameWindow policies s' intent now) (hs₁ : s₁.policyDecisions = s'.policyDecisions) :
    reserveApprovalAllowance policies { s₁ with now := now } intent approvalId =
      .ok ({ s₁ with now := now }, .reserved id false) := by
  obtain ⟨hscope, hfresh, rfl, rfl⟩ := created_ok h
  obtain ⟨hrows, haggregate⟩ := hnow
  have hrows : activeRows policies intent now = activeRows policies intent s.now := hrows
  have hread : { s₁ with now := now }.aggregate intent =
      (s.aggregate intent).plus intent.valueUsd := by
    rw [← aggregate_insert, ← haggregate]
    unfold State.aggregate
    rw [hs₁]
  have hdecisions : s₁.policyDecisions = s.policyDecisions ++ [⟨s.nextId, intent.organizationId,
      intent.agentId, .allow, none, intent.valueUsd, some approvalId, s.now⟩] := hs₁
  have hfind : s₁.policyDecisions.find? (fun d => d.approvalId = some approvalId) =
      some ⟨s.nextId, intent.organizationId, intent.agentId, .allow, none, intent.valueUsd,
        some approvalId, s.now⟩ := by
    rw [hdecisions, List.find?_append, List.find?_eq_none.mpr (by simpa using hfresh)]
    simp
  have hexists : ∃ d ∈ s₁.policyDecisions, d.approvalId = some approvalId :=
    ⟨_, List.mem_of_find?_eq_some hfind, rfl⟩
  unfold reserveApprovalAllowance
  rw [if_neg hscope, hread]
  dsimp only
  rw [hrows, if_neg hcap, if_pos hexists, hfind]
  rfl

/-- A reservation that has made its row can be repeated if and only if the caps of the active
policies have room for its value once more. -/
theorem reserve_again_iff (policies : List Policy) (s s' : State) (intent : PolicyIntent)
    (approvalId : ApprovalId) (id : ℤ)
    (h : reserveApprovalAllowance policies s intent approvalId = .ok (s', .reserved id true)) :
    Reentrant policies s' intent approvalId id ↔
      ¬ ∃ q ∈ activeRows policies intent s.now,
        q.exceeded ((s.aggregate intent).plus intent.valueUsd) intent.valueUsd := by
  constructor
  · intro hreentrant hcap
    obtain ⟨hscope, -, rfl, rfl⟩ := created_ok h
    obtain ⟨s'', hretries, -⟩ := hreentrant [s.now] fun t ht => by
      obtain rfl := List.mem_singleton.mp ht
      exact ⟨rfl, rfl⟩
    have hblocked : reserveApprovalAllowance policies
        (s.insertDecision intent ⟨.allow, none⟩ (some approvalId) s.now) intent approvalId =
        .ok (s.insertDecision intent ⟨.allow, none⟩ (some approvalId) s.now, .blocked) := by
      unfold reserveApprovalAllowance
      rw [if_neg hscope, aggregate_insert]
      exact if_pos hcap
    have hone : retries policies intent approvalId
        (s.insertDecision intent ⟨.allow, none⟩ (some approvalId) s.now) [s.now] =
        .ok (s.insertDecision intent ⟨.allow, none⟩ (some approvalId) s.now, [.blocked]) := by
      unfold retries
      rw [show
        { s.insertDecision intent ⟨.allow, none⟩ (some approvalId) s.now with now := s.now } =
          s.insertDecision intent ⟨.allow, none⟩ (some approvalId) s.now from rfl, hblocked]
      rfl
    rw [hone] at hretries
    exact nomatch (Prod.mk.inj (Except.ok.inj hretries)).2
  · intro hcap times htimes
    have hall : ∀ s₁ : State, s₁.policyDecisions = s'.policyDecisions →
        ∃ s₂, retries policies intent approvalId s₁ times =
          .ok (s₂, List.replicate times.length (.reserved id false)) ∧
          s₂.policyDecisions = s'.policyDecisions := by
      induction times with
      | nil => exact fun s₁ hs₁ => ⟨s₁, rfl, hs₁⟩
      | cons t times ih =>
        intro s₁ hs₁
        obtain ⟨s₂, hretries, hs₂⟩ := ih (fun t ht => htimes t (List.mem_cons_of_mem _ ht))
          { s₁ with now := t } hs₁
        refine ⟨s₂, ?_, hs₂⟩
        rw [retries, reserve_found h hcap (htimes t List.mem_cons_self) hs₁, ok_bind]
        dsimp only
        rw [hretries]
        rfl
    exact hall s' rfl

/-- A trade of the organisation itself. -/
def ownTrade (valueUsd : ℚ≥0) : PolicyIntent :=
  ⟨some 1, none, "", none, none, none, none, valueUsd, none, none⟩

/-- A reservation of 1 under a cap of 100. -/
theorem small_reservation_repeated : ∃ s', Reentrant [dailyCap100] s' (ownTrade 1) 5 0 := by
  have hcreated : reserveApprovalAllowance [dailyCap100] ⟨0, [], 0, []⟩ (ownTrade 1) 5 =
      .ok (State.insertDecision ⟨0, [], 0, []⟩ (ownTrade 1) ⟨.allow, none⟩ (some 5) 0,
        .reserved 0 true) := by
    decide +kernel
  exact ⟨_, (reserve_again_iff _ _ _ _ _ _ hcreated).mpr (by decide +kernel)⟩

/-- A reservation of 80 under a cap of 100 cannot be repeated: its own row counts against it. -/
theorem large_reservation_blocked : ¬ ∀ (policies : List Policy) (s s' : State)
    (intent : PolicyIntent) (approvalId : ApprovalId) (id : ℤ),
    reserveApprovalAllowance policies s intent approvalId = .ok (s', .reserved id true) →
      Reentrant policies s' intent approvalId id := by
  intro hall
  have hcreated : reserveApprovalAllowance [dailyCap100] ⟨0, [], 0, []⟩ (ownTrade 80) 5 =
      .ok (State.insertDecision ⟨0, [], 0, []⟩ (ownTrade 80) ⟨.allow, none⟩ (some 5) 0,
        .reserved 0 true) := by
    decide +kernel
  obtain ⟨s'', hretries, -⟩ := hall _ _ _ _ _ _ hcreated [0] fun t ht => by
    obtain rfl := List.mem_singleton.mp ht
    exact ⟨rfl, rfl⟩
  have hblocked : (retries [dailyCap100] (ownTrade 80) 5
      (State.insertDecision ⟨0, [], 0, []⟩ (ownTrade 80) ⟨.allow, none⟩ (some 5) 0)
      [0]).toOption.map Prod.snd = some [.blocked] := by
    decide +kernel
  rw [hretries] at hblocked
  cases hblocked

end Suwappu.PolicyService
