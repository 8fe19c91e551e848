import Suwappu.PolicyService.Basic

/-!
# The caps of an organisation's policies

At every time the allowed decisions within the scope of a policy stay within its caps, in the runs
in which each intent of an agent that the agent's own sums let pass an organisation's cap would be
let pass by the organisation's sums too.
-/

namespace Suwappu.PolicyService

open Checked

/-! ### Sums -/

instance Sums.instLE : LE Sums :=
  ⟨fun s s' => s.daySum ≤ s'.daySum ∧ s.hourSum ≤ s'.hourSum ∧ s.hourCount ≤ s'.hourCount⟩

variable {p : Policy} {s s' : State} {v : ℚ≥0} {intent : PolicyIntent} {rows : List Policy}
  {l l' : List PolicyDecision} {now now' : Time}

lemma sums_sublist (h : l.Sublist l') : sums l now ≤ sums l' now :=
  ⟨Window.sumSince_sublist h, Window.sumSince_sublist h, Window.sumSince_sublist h⟩

lemma sums_later (h : now ≤ now') : sums l now' ≤ sums l now :=
  ⟨Window.sumSince_anti (Nat.sub_le_sub_right h _), Window.sumSince_anti (Nat.sub_le_sub_right h _),
    Window.sumSince_anti (Nat.sub_le_sub_right h _)⟩

lemma Sums.le_trans {a b c : Sums} (h : a ≤ b) (h' : b ≤ c) : a ≤ c :=
  ⟨h.1.trans h'.1, h.2.1.trans h'.2.1, h.2.2.trans h'.2.2⟩

lemma Policy.exceeded.mono {a b : Sums} (h : p.exceeded a v) (hle : a ≤ b) : p.exceeded b v := by
  rcases h with ⟨cap, hcap, h⟩ | ⟨cap, hcap, h⟩ | ⟨limit, hlimit, h⟩
  · exact .inl ⟨cap, hcap, h.trans_le (add_le_add hle.1 le_rfl)⟩
  · exact .inr (.inl ⟨cap, hcap, h.trans_le (add_le_add hle.2.1 le_rfl)⟩)
  · exact .inr (.inr ⟨limit, hlimit, h.trans_le (add_le_add hle.2.2 le_rfl)⟩)

/-- The sums are within the caps. -/
structure Policy.Keeps (p : Policy) (s : Sums) : Prop where
  daily : ∀ cap ∈ p.dailyCapUsd, s.daySum ≤ cap
  session : ∀ cap ∈ p.sessionCapUsd, s.hourSum ≤ cap
  velocity : ∀ limit ∈ p.maxTxPerHour, s.hourCount ≤ limit

lemma Policy.Keeps.mono {a b : Sums} (h : p.Keeps b) (hle : a ≤ b) : p.Keeps a :=
  ⟨fun cap hcap => hle.1.trans (h.daily cap hcap),
    fun cap hcap => hle.2.1.trans (h.session cap hcap),
    fun limit hlimit => hle.2.2.trans (h.velocity limit hlimit)⟩

/-- One more decision that exceeds no cap. -/
lemma Policy.keeps_concat {d : PolicyDecision} (h : ¬ p.exceeded (sums l now) d.valueUsd) :
    p.Keeps (sums (l ++ [d]) now) := by
  simp only [exceeded, not_or, not_exists, not_and, not_lt] at h
  obtain ⟨hdaily, hsession, hvelocity⟩ := h
  refine ⟨fun cap hcap => le_trans ?_ (hdaily cap hcap),
    fun cap hcap => le_trans ?_ (hsession cap hcap),
    fun limit hlimit => le_trans ?_ (hvelocity limit hlimit)⟩ <;>
  · simp only [sums, Window.sumSince_append, Window.sumSince_cons, Window.sumSince_nil, add_zero]
    refine add_le_add le_rfl ?_
    split_ifs
    · exact le_rfl
    · exact zero_le

/-! ### Scopes -/

/-- The decisions a policy is about: of its agent, or of every agent and member. -/
def Policy.scope (p : Policy) (d : PolicyDecision) : Prop :=
  d.decision = .allow ∧ d.organizationId = p.organizationId ∧
    (p.agentId ≠ none → d.agentId = p.agentId)

instance Policy.decidableScope (p : Policy) (d : PolicyDecision) : Decidable (p.scope d) := by
  unfold Policy.scope
  infer_instance

def State.used (s : State) (p : Policy) (now : Time) : Sums :=
  sums (s.policyDecisions.filter fun d => p.scope d) now

/-- The enabled policies of an organisation that have not expired. -/
def InForce (policies : List Policy) (now : Time) (p : Policy) : Prop :=
  p ∈ policies ∧ p.enabled = true ∧ p.organizationId ≠ none ∧ p.active now

variable (policies : List Policy)

/-- Every policy in force within its caps. -/
def Capped (s : State) : Prop := ∀ p, InForce policies s.now p → p.Keeps (s.used p s.now)

/-- The organisation's sums let an intent of an agent pass where the agent's own do. -/
def Scoped (s : State) : Proc → Prop
  | .sum intent rows _ now _ | .reserveSum intent _ rows now _ => intent.agentId ≠ none →
    ∀ p ∈ rows, p.agentId = none →
      ¬ p.exceeded (sums (s.policyDecisions.filter fun d => agentFilter intent d) now)
        intent.valueUsd →
      ¬ p.exceeded (s.used p now) intent.valueUsd
  | _ => True

instance decidableScoped (s : State) : ∀ q, Decidable (Scoped s q) :=
  fun q => by unfold Scoped; split <;> infer_instance

/-! ### What a call knows -/

/-- The advisory lock of a call. -/
def Proc.holds : Proc → Option LockKey
  | .sum intent _ _ _ _ | .insert intent _ _ | .reserveLoad intent _ _
  | .reserveSum intent _ _ _ _ | .reserveInsert intent _ _ => some (lockKey intent)
  | _ => none

def held : Option LockKey → LockKey → ℕ
  | some key => Pi.single key 1
  | none     => 0

def holder (q : Proc) : LockKey → ℕ := held q.holds

/-- Every policy in force that applies to the intent is among the rows. -/
def Loaded (s : State) (intent : PolicyIntent) (rows : List Policy) : Prop :=
  ∀ p, InForce policies s.now p → p.appliesTo intent → p ∈ rows

/-- The intent fits into the caps of every policy in force. -/
def Fits (s : State) (intent : PolicyIntent) : Prop :=
  ∀ p, InForce policies s.now p → p.appliesTo intent →
    ¬ p.exceeded (s.used p s.now) intent.valueUsd

def Knows (s : State) : Proc → Prop
  | .log intent ruling => ruling.decision = .allow → Loaded policies s intent []
  | .begin intent rows _ now | .lock intent rows _ now _ | .sum intent rows _ now _
  | .reserveSum intent _ rows now _ => now ≤ s.now ∧ Loaded policies s intent rows
  | .insert intent ruling _ => ruling.decision = .allow → Fits policies s intent
  | .reserveInsert intent _ _ => Fits policies s intent
  | _ => True

variable {policies}

lemma InForce.earlier (h : InForce policies now' p) (hnow : now ≤ now') : InForce policies now p :=
  ⟨h.1, h.2.1, h.2.2.1, fun t ht => hnow.trans_lt (h.2.2.2 t ht)⟩

lemma Loaded.later (h : Loaded policies s intent rows) (hnow : s.now ≤ s'.now) :
    Loaded policies s' intent rows := fun p hp ha => h p (hp.earlier hnow) ha

lemma loaded_activeRows (s : State) (intent : PolicyIntent) :
    Loaded policies s intent (activeRows policies intent s.now) := by
  intro p hp ha
  simp only [activeRows, List.mem_filter, decide_eq_true_eq]
  exact ⟨⟨hp.1, ha⟩, hp.2.2.2⟩

/-- A row of the intent is in the scope of the policies that apply to it, and of no other. -/
lemma appliesTo_of_scope {d : PolicyDecision} (hp : InForce policies now p) (h : p.scope d)
    (horg : d.organizationId = intent.organizationId) (hagent : d.agentId = intent.agentId) :
    p.appliesTo intent := by
  obtain ⟨-, hscope, hagent'⟩ := h
  have hsome := hp.2.2.1
  rw [← hscope, horg] at hsome
  refine ⟨hp.2.1, by rw [← hscope, horg], ?_⟩
  by_cases hnone : intent.organizationId.isSome ∧ p.agentId = none
  · rw [if_pos hnone]
    trivial
  · rw [if_neg hnone]
    have hp' : p.agentId ≠ none := fun h => hnone ⟨Option.isSome_iff_ne_none.mpr hsome, h⟩
    have heq := hagent' hp'
    rw [hagent] at heq
    exact ⟨by rw [heq]; exact Option.isSome_iff_ne_none.mpr hp', heq.symm⟩

/-- Apart from an agent's intent under a policy of the organisation, the sums read are those of the
scope at least. -/
lemma agentFilter_of_scope {d : PolicyDecision} (ha : p.appliesTo intent)
    (hcase : intent.agentId ≠ none → p.agentId ≠ none) (h : p.scope d) : agentFilter intent d := by
  obtain ⟨hallow, horg, hagent⟩ := h
  obtain ⟨-, horg', hif⟩ := ha
  refine ⟨hallow, ?_⟩
  cases hi : intent.agentId with
  | none => simp [horg, horg']
  | some agentId =>
    have hp : p.agentId ≠ none := hcase (by simp [hi])
    rw [if_neg fun h => hp h.2, hi] at hif
    simp [hagent hp, hif.2]

/-- A call that finds no cap exceeded knows that its intent fits. -/
lemma fits_of_not_exceeded (hnow : now ≤ s.now) (hrows : Loaded policies s intent rows)
    (hscoped : intent.agentId ≠ none → ∀ p ∈ rows, p.agentId = none →
      ¬ p.exceeded (sums (s.policyDecisions.filter fun d => agentFilter intent d) now)
        intent.valueUsd →
      ¬ p.exceeded (s.used p now) intent.valueUsd)
    (h : ∀ p ∈ rows, ¬ p.exceeded
      (sums (s.policyDecisions.filter fun d => agentFilter intent d) now) intent.valueUsd) :
    Fits policies s intent := by
  intro p hp ha hexceeded
  have hmem := hrows p hp ha
  have hused : p.exceeded (s.used p now) intent.valueUsd := hexceeded.mono (sums_later hnow)
  by_cases hcase : p.agentId = none ∧ intent.agentId ≠ none
  · exact hscoped hcase.2 p hmem hcase.1 (h p hmem) hused
  · refine h p hmem (hused.mono (sums_sublist ?_))
    refine List.monotone_filter_right _ fun d hd => ?_
    exact decide_eq_true (agentFilter_of_scope ha (not_and'.mp hcase) (of_decide_eq_true hd))

/-! ### The invariant -/

variable {toLowerCase : String → String} {m rest : LockKey → ℕ} {key : LockKey} {q q' : Proc}
  {answer : Answer} {ruling : Ruling}
  {approvalId : Option ApprovalId} {createdAt : Time}

/-- Each lock has one holder, and no cap is exceeded. -/
structure Safe (policies : List Policy) (s : State) (m : LockKey → ℕ) : Prop where
  holders : ∀ key, m key = s.locked.count key
  nodup : s.locked.Nodup
  capped : Capped policies s

lemma held_some_add (key : LockKey) : (held (some key) + rest) key = 1 + rest key := by
  simp [held]

lemma Safe.acquire (h : Safe policies s (held none + rest)) (hkey : key ∉ s.locked) :
    Safe policies (s.acquire key) (held (some key) + rest) := by
  refine ⟨fun k => ?_, List.nodup_cons.mpr ⟨hkey, h.nodup⟩, h.capped⟩
  have hk := h.holders k
  simp only [held, zero_add] at hk
  rw [State.acquire, List.count_cons, ← hk, held, Pi.add_apply, Pi.single_apply, add_comm]
  by_cases heq : k = key
  · simp [heq]
  · simp [heq, Ne.symm heq]

lemma Safe.release (h : Safe policies s (held (some key) + rest)) :
    Safe policies (s.release key) (held none + rest) := by
  refine ⟨fun k => ?_, h.nodup.erase key, h.capped⟩
  have hk := h.holders k
  simp only [held, Pi.add_apply, Pi.single_apply, Pi.zero_apply] at hk ⊢
  rw [State.release, List.count_erase, ← hk]
  by_cases heq : k = key
  · simp [heq]
  · simp [heq, Ne.symm heq]

/-- Nobody else holds a lock that is held. -/
lemma Safe.alone (h : Safe policies s (held (some key) + rest)) : rest key = 0 := by
  have hk := h.holders key
  have hle := List.nodup_iff_count_le_one.mp h.nodup key
  rw [held_some_add] at hk
  omega

/-- A row that fits, or that is in no scope. -/
lemma Capped.insert (h : Capped policies s)
    (hfits : ruling.decision = .allow → Fits policies s intent) :
    Capped policies (s.insertDecision intent ruling approvalId createdAt) := by
  intro p hp
  rw [State.used, State.insertDecision, List.filter_append]
  by_cases hd : p.scope ⟨s.nextId, intent.organizationId, intent.agentId, ruling.decision,
      ruling.matchedPolicyId, intent.valueUsd, approvalId, createdAt⟩
  · rw [List.filter_singleton, decide_eq_true hd]
    exact Policy.keeps_concat (hfits hd.1 p hp (appliesTo_of_scope hp hd rfl rfl))
  · rw [List.filter_singleton, decide_eq_false hd]
    simpa [State.used] using h p hp

lemma Safe.insert (h : Safe policies s m)
    (hfits : ruling.decision = .allow → Fits policies s intent) :
    Safe policies (s.insertDecision intent ruling approvalId createdAt) m :=
  ⟨h.holders, h.nodup, h.capped.insert hfits⟩

lemma Safe.delete (h : Safe policies s m) (id : DecisionId) :
    Safe policies (s.deleteDecision id) m :=
  ⟨h.holders, h.nodup, fun p hp => (h.capped p hp).mono
    (sums_sublist (List.filter_sublist.filter _))⟩

lemma Safe.elapse (h : Safe policies s m) (duration : Time) :
    Safe policies { s with now := s.now + duration } m :=
  ⟨h.holders, h.nodup, fun p hp => (h.capped p (hp.earlier (Nat.le_add_right _ _))).mono
    (sums_later (Nat.le_add_right _ _))⟩

/-- No policy in force applies to an intent that none is loaded for. -/
lemma Loaded.fits (h : Loaded policies s intent []) : Fits policies s intent :=
  fun p hp ha => absurd (h p hp ha) List.not_mem_nil

lemma capRuling_allow {used : Sums} {pending : Ruling}
    (h : (capRuling rows intent used pending).decision = .allow) :
    ∀ p ∈ rows, ¬ p.exceeded used intent.valueUsd := by
  unfold capRuling at h
  split at h
  · cases h
  · rename_i hfind
    simpa using List.find?_eq_none.mp hfind

theorem Safe.step (hI : Safe policies s (holder q + rest)) (hK : Knows policies s q)
    (hC : Scoped s q) (h : PolicyService.step toLowerCase policies s q answer = .ok (s', q')) :
    Safe policies s' (holder q' + rest) ∧ Knows policies s' q' := by
  cases q with
  | evaluate intent =>
    dsimp only [PolicyService.step] at h
    split_ifs at h
    · cases h
      exact ⟨hI, trivial⟩
    · cases answer with
      | none =>
        cases h
        exact ⟨hI, trivial⟩
      | killed =>
        cases h
        exact ⟨hI, nofun⟩
      | fails =>
        cases h
        exact ⟨hI, trivial⟩
  | loadPolicies intent =>
    cases answer with
    | none =>
      dsimp only [PolicyService.step] at h
      split_ifs at h with hrows hblock
      · cases h
        exact ⟨hI, fun _ => hrows ▸ loaded_activeRows s _⟩
      · cases h
        exact ⟨hI, fun hallow => by rw [hblock] at hallow; cases hallow⟩
      · cases h
        exact ⟨hI, le_rfl, loaded_activeRows s _⟩
    | fails =>
      cases h
      exact ⟨hI, trivial⟩
    | _ => cases h
  | log intent ruling =>
    cases answer with
    | none =>
      cases h
      exact ⟨hI.insert fun hallow => (hK hallow).fits, trivial⟩
    | fails =>
      cases h
      exact ⟨hI, trivial⟩
    | _ => cases h
  | begin intent rows pending now =>
    cases answer with
    | none =>
      cases h
      exact ⟨hI, hK⟩
    | fails =>
      cases h
      exact ⟨hI, trivial⟩
    | _ => cases h
  | lock intent rows pending now startedAt =>
    cases answer with
    | none =>
      dsimp only [PolicyService.step] at h
      split_ifs at h with hkey
      cases h
      exact ⟨hI.acquire hkey, hK⟩
    | fails =>
      cases h
      exact ⟨hI, trivial⟩
    | _ => cases h
  | sum intent rows pending now startedAt =>
    cases answer with
    | none =>
      cases h
      refine ⟨hI, fun hallow => ?_⟩
      exact fits_of_not_exceeded hK.1 hK.2 hC (capRuling_allow hallow)
    | fails =>
      cases h
      exact ⟨hI.release, trivial⟩
    | _ => cases h
  | insert intent ruling startedAt =>
    cases answer with
    | none =>
      cases h
      exact ⟨(hI.insert hK).release, trivial⟩
    | fails =>
      cases h
      exact ⟨hI.release, trivial⟩
    | _ => cases h
  | reserve intent approvalId =>
    cases answer with
    | none =>
      dsimp only [PolicyService.step] at h
      split at h
      · cases h
        exact ⟨hI, trivial⟩
      · cases h
        exact ⟨hI, trivial⟩
    | fails =>
      cases h
      exact ⟨hI, trivial⟩
    | _ => cases h
  | reserveLock intent approvalId startedAt =>
    cases answer with
    | none =>
      dsimp only [PolicyService.step] at h
      split_ifs at h with hkey
      cases h
      exact ⟨hI.acquire hkey, trivial⟩
    | fails =>
      cases h
      exact ⟨hI, trivial⟩
    | _ => cases h
  | reserveLoad intent approvalId startedAt =>
    cases answer with
    | none =>
      cases h
      exact ⟨hI, le_rfl, loaded_activeRows s _⟩
    | fails =>
      cases h
      exact ⟨hI.release, trivial⟩
    | _ => cases h
  | reserveSum intent approvalId rows now startedAt =>
    cases answer with
    | none =>
      dsimp only [PolicyService.step] at h
      split_ifs at h with hexceeded
      · cases h
        exact ⟨hI.release, trivial⟩
      · cases h
        exact ⟨hI, fits_of_not_exceeded hK.1 hK.2 hC fun p hp he => hexceeded ⟨p, hp, he⟩⟩
    | fails =>
      cases h
      exact ⟨hI.release, trivial⟩
    | _ => cases h
  | reserveInsert intent approvalId startedAt =>
    cases answer with
    | none =>
      dsimp only [PolicyService.step] at h
      split_ifs at h
      · cases h
        exact ⟨hI.release, trivial⟩
      · cases h
        exact ⟨(hI.insert fun _ => hK).release, trivial⟩
    | fails =>
      cases h
      exact ⟨hI.release, trivial⟩
    | _ => cases h
  | reserved id =>
    cases answer with
    | none =>
      cases h
      exact ⟨hI.delete _, trivial⟩
    | _ => cases h
  | returned | failed => cases answer <;> cases h

/-! ### What the other calls know -/

/-- What a step does to the log: nothing, one row of its intent, or one row less. -/
inductive Logs (s : State) (q : Proc) (s' : State) : Prop where
  | same (h : s'.policyDecisions = s.policyDecisions)
  | insert (d : PolicyDecision) (intent : PolicyIntent) (ruling : Ruling)
      (h : s'.policyDecisions = s.policyDecisions ++ [d])
      (horg : d.organizationId = intent.organizationId) (hagent : d.agentId = intent.agentId)
      (hq : q = .log intent ruling ∧ d.decision = ruling.decision ∨
        q.holds = some (lockKey intent))
  | delete (h : s'.policyDecisions.Sublist s.policyDecisions)

lemma step_logs (h : PolicyService.step toLowerCase policies s q answer = .ok (s', q')) :
    s'.now = s.now ∧ Logs s q s' := by
  cases q with
  | evaluate intent =>
    dsimp only [PolicyService.step] at h
    split_ifs at h
    · cases h
      exact ⟨rfl, .same rfl⟩
    · cases answer with
      | none | killed | fails =>
        cases h
        exact ⟨rfl, .same rfl⟩
  | loadPolicies intent =>
    cases answer with
    | none =>
      dsimp only [PolicyService.step] at h
      split_ifs at h <;> (cases h; exact ⟨rfl, .same rfl⟩)
    | fails =>
      cases h
      exact ⟨rfl, .same rfl⟩
    | _ => cases h
  | log intent ruling =>
    cases answer with
    | none =>
      cases h
      exact ⟨rfl, .insert _ _ _ rfl rfl rfl (.inl ⟨rfl, rfl⟩)⟩
    | fails =>
      cases h
      exact ⟨rfl, .same rfl⟩
    | _ => cases h
  | begin | sum | reserveLoad =>
    cases answer with
    | none | fails =>
      cases h
      exact ⟨rfl, .same rfl⟩
    | _ => cases h
  | lock | reserveLock =>
    cases answer with
    | none =>
      dsimp only [PolicyService.step] at h
      split_ifs at h
      cases h
      exact ⟨rfl, .same rfl⟩
    | fails =>
      cases h
      exact ⟨rfl, .same rfl⟩
    | _ => cases h
  | insert intent ruling startedAt =>
    cases answer with
    | none =>
      cases h
      exact ⟨rfl, .insert _ _ ⟨.allow, none⟩ rfl rfl rfl (.inr rfl)⟩
    | fails =>
      cases h
      exact ⟨rfl, .same rfl⟩
    | _ => cases h
  | reserve intent approvalId =>
    cases answer with
    | none =>
      dsimp only [PolicyService.step] at h
      split at h <;> (cases h; exact ⟨rfl, .same rfl⟩)
    | fails =>
      cases h
      exact ⟨rfl, .same rfl⟩
    | _ => cases h
  | reserveSum intent approvalId rows now startedAt =>
    cases answer with
    | none =>
      dsimp only [PolicyService.step] at h
      split_ifs at h <;> (cases h; exact ⟨rfl, .same rfl⟩)
    | fails =>
      cases h
      exact ⟨rfl, .same rfl⟩
    | _ => cases h
  | reserveInsert intent approvalId startedAt =>
    cases answer with
    | none =>
      dsimp only [PolicyService.step] at h
      split_ifs at h
      · cases h
        exact ⟨rfl, .same rfl⟩
      · cases h
        exact ⟨rfl, .insert _ _ ⟨.allow, none⟩ rfl rfl rfl (.inr rfl)⟩
    | fails =>
      cases h
      exact ⟨rfl, .same rfl⟩
    | _ => cases h
  | reserved id =>
    cases answer with
    | none =>
      cases h
      exact ⟨rfl, .delete List.filter_sublist⟩
    | _ => cases h
  | returned | failed => cases answer <;> cases h

lemma Fits.mono (h : Fits policies s intent) (hnow : s.now ≤ s'.now)
    (hused : ∀ p, InForce policies s'.now p → p.appliesTo intent →
      s'.used p s.now ≤ s.used p s.now) : Fits policies s' intent :=
  fun p hp ha he => h p (hp.earlier hnow) ha
    (he.mono (Sums.le_trans (sums_later hnow) (hused p hp ha)))

/-- A call with another lock, or none, leaves the scopes alone that an intent falls into. -/
lemma Logs.used_le (h : Logs s q s') (hnow : s'.now = s.now) (hK : Knows policies s q)
    (hlock : q.holds ≠ some (lockKey intent)) (hp : InForce policies s'.now p)
    (ha : p.appliesTo intent) : s'.used p s.now ≤ s.used p s.now := by
  cases h with
  | same h =>
    rw [State.used, State.used, h]
    exact sums_sublist (List.Sublist.refl _)
  | delete h => exact sums_sublist (h.filter _)
  | insert d intent' ruling h horg hagent hq =>
    have hscope : ¬ p.scope d := by
      intro hd
      have ha' := appliesTo_of_scope hp hd horg hagent
      rcases hq with ⟨rfl, hdecision⟩ | hholds
      · exact absurd (hK (hdecision ▸ hd.1) p (hnow ▸ hp) ha') List.not_mem_nil
      · refine hlock ?_
        have horg' : intent'.organizationId = intent.organizationId := by
          rw [← ha'.2.1, ha.2.1]
        obtain ⟨organizationId, hsome⟩ := Option.ne_none_iff_exists'.mp hp.2.2.1
        have hintent : intent.organizationId = some organizationId := by rw [← ha.2.1, hsome]
        rw [hholds, lockKey, lockKey, horg', hintent]
    rw [State.used, State.used, h, List.filter_append, List.filter_singleton,
      decide_eq_false hscope]
    simpa using sums_sublist (List.Sublist.refl _)

/-- What another call knows outlives a step. -/
lemma Knows.stable {r : Proc} (hI : Safe policies s (holder q + rest)) (hK : Knows policies s q)
    (h : PolicyService.step toLowerCase policies s q answer = .ok (s', q')) (hr : holder r ≤ rest)
    (hKr : Knows policies s r) : Knows policies s' r := by
  obtain ⟨hnow, hlogs⟩ := step_logs h
  have hfits : ∀ intent, r.holds = some (lockKey intent) → Fits policies s intent →
      Fits policies s' intent := by
    intro intent hholds hf
    refine hf.mono hnow.ge fun p hp ha => hlogs.used_le hnow hK ?_ hp ha
    intro hq
    have hzero := (show Safe policies s (held (some (lockKey intent)) + rest) by
      rw [← hq]; exact hI).alone
    have hone : 1 ≤ rest (lockKey intent) := by
      simpa [holder, hholds, held] using hr (lockKey intent)
    omega
  cases r with
  | log intent ruling => exact fun hallow => (hKr hallow).later hnow.ge
  | begin | lock | sum | reserveSum => exact ⟨hKr.1.trans hnow.ge, hKr.2.later hnow.ge⟩
  | insert intent ruling startedAt => exact fun hallow => hfits intent rfl (hKr hallow)
  | reserveInsert intent approvalId startedAt => exact hfits intent rfl hKr
  | _ => trivial

/-- So it does when time passes. -/
lemma Knows.elapse (h : Knows policies s q) (duration : Time) :
    Knows policies { s with now := s.now + duration } q := by
  have hnow : s.now ≤ s.now + duration := Nat.le_add_right _ _
  have hfits : ∀ intent, Fits policies s intent →
      Fits policies { s with now := s.now + duration } intent :=
    fun intent hf => hf.mono hnow fun p _ _ => sums_sublist (List.Sublist.refl _)
  cases q with
  | log intent ruling => exact fun hallow => (h hallow).later hnow
  | begin | lock | sum | reserveSum => exact ⟨h.1.trans hnow, h.2.later hnow⟩
  | insert intent ruling startedAt => exact fun hallow => hfits intent (h hallow)
  | reserveInsert intent approvalId startedAt => exact hfits intent h
  | _ => trivial

/-! ### Runs -/

variable {n : ℕ}

lemma safe_inductive (toLowerCase : String → String) (policies : List Policy) :
    (program toLowerCase policies).Inductive holder (Safe policies) (Knows policies)
      (fun s _ q _ => Scoped s q) (fun _ _ _ => True) where
  step hI hK hC hstep := hI.step hK hC hstep
  stable hI hK _ hstep hr hKr := Knows.stable hI hK hstep hr hKr
  environment hI _ hstep := by
    cases hstep
    exact ⟨hI.elapse _, fun _ _ hK => hK.elapse _⟩

lemma safe_initial (now : Time) (calls : Fin n → Call) :
    Program.Invariant holder (Safe policies) (Knows policies) (initial now calls) := by
  have hholds : ∀ i, holder ((initial now calls).procs i) = 0 := by
    intro i
    dsimp only [initial]
    cases calls i <;> rfl
  have htotal : (initial now calls).total holder = 0 := Finset.sum_eq_zero fun i _ => hholds i
  refine ⟨?_, fun i => ?_⟩
  · rw [htotal]
    exact ⟨fun _ => rfl, List.nodup_nil, fun p _ =>
      ⟨fun _ _ => zero_le, fun _ _ => zero_le, fun _ _ => zero_le⟩⟩
  · dsimp only [initial]
    cases calls i <;> trivial

/-- Whatever calls run, in any order: at every time every policy of an organisation is within its
caps, where each intent of an agent is let pass by the organisation's sums as by its own. -/
theorem capped_of_scoped (toLowerCase : String → String) (policies : List Policy) (now : Time)
    (calls : Fin n → Call) (acts : List (Action n))
    (h : ((program toLowerCase policies).machine n).Along
      (Program.Meets holder (fun s _ q _ => Scoped s q) fun _ _ _ => True) (initial now calls)
      acts) :
    Capped policies
      (((program toLowerCase policies).machine n).run (initial now calls) acts).shared :=
  ((safe_inductive toLowerCase policies).run acts (safe_initial now calls) h).shared.capped

/-! ### Two agents -/

/-- A daily cap of 100 for an organisation. -/
def dailyCap100 : Policy where
  id := 0
  organizationId := some 1
  agentId := none
  approvalMode := .above_limit
  expiresAt := none
  allowedContracts := []
  enabled := true
  maxTxUsd := none
  maxSlippageBps := none
  maxGasUsd := none
  dailyCapUsd := some 100
  sessionCapUsd := none
  maxTxPerHour := none
  allowedChains := []
  blockedChains := []
  allowedTokens := []
  blockedTokens := []
  destinationAllowlist := []
  requireApprovalAboveUsd := none

/-- An agent of the organisation trades. -/
def trade (agentId : AgentId) (valueUsd : ℚ≥0) : Call :=
  .evaluate ⟨some 1, some agentId, "", none, none, none, none, valueUsd, none, none⟩

/-- A call of `evaluate`, from its start to its commit. -/
def evaluated (i : Fin n) : List (Action n) :=
  [.take i .none, .take i .none, .take i .none, .take i .none, .take i .none, .take i .none]

/-- One agent alone is kept to the cap: of 80 and 80 the second trade is blocked. -/
theorem one_agent_capped :
    Capped [dailyCap100] (((program String.toLower [dailyCap100]).machine 2).run
      (initial 0 fun _ => trade 7 80) (evaluated 0 ++ evaluated 1)).shared :=
  capped_of_scoped String.toLower [dailyCap100] 0 (fun _ => trade 7 80) _ (by decide +kernel)

/-- Two agents are allowed 80 each under a cap of 100. -/
theorem two_agents_exceed_cap :
    ¬ ∀ (toLowerCase : String → String) (n : ℕ) (policies : List Policy) (now : Time)
      (calls : Fin n → Call)
      (acts : List (Action n)),
      Capped policies
        (((program toLowerCase policies).machine n).run (initial now calls) acts).shared := by
  intro h
  have hcap := (h String.toLower 2 [dailyCap100] 0 ![trade 7 80, trade 8 80]
    (evaluated 0 ++ evaluated 1) dailyCap100
    ⟨List.mem_singleton_self _, rfl, nofun, nofun⟩).daily 100 rfl
  revert hcap
  decide +kernel

end Suwappu.PolicyService
