import Suwappu.Lib.Rows
import Suwappu.SwapEngine.ExecuteSwap

/-!
# Attempts and their records

Any number of calls of `execute_swap`, with one idempotency key or several, on any engine objects
and in any processes. Every session and every call to the outside is a step; any of them may fail,
applied or not, and the process may die with it. The locks of the engines only leave out orders, and
are left out here.

`attempts_once`: with the unique index on the key, the executor is started for one call at most.
-/

namespace Suwappu.SwapEngine.Attempts

structure State where
  swaps : List SwapTransaction
deriving DecidableEq

inductive Stage where
  | checkIdempotency
  /-- freshness, wallet, limits, compliance and balance -/
  | guards
  | createRecord
  | simulate
  | markSimFailed
  | execute
  | updateTxHash
  | recordSpend
  | invalidateCache
  | publishSubmitted
  | copyHook
  | settlePosition
  | refetch
  | markFailed
  | publishFailed
  | returned (swapId : SwapId)
  | raised
  | crashed
deriving DecidableEq, Repr

/-- A call of `execute_swap`. -/
structure Proc where
  userId : UserId
  idempotencyKey : Option String
  stage : Stage
  /-- of the record that the call has made -/
  swapId : Option SwapId
  /-- the executor of the provider has been started -/
  started : Bool
deriving DecidableEq

inductive Answer where
  | ok
  /-- the simulation finds the trade unsafe -/
  | blocked
  | fails (applied : Bool) (crash : Bool)
deriving DecidableEq

inductive Error where
  /-- the call is over, or its step has no such answer -/
  | NotNext
deriving DecidableEq, Repr

/-- The first row of a key, unless it has failed. -/
def State.existing (s : State) (key : String) : Option SwapId :=
  (s.swaps.findIdx? fun t => t.idempotencyKey = some key).filter fun id =>
    ∃ t ∈ s.swaps[id]?, t.status ≠ .FAILED ∧ t.status ≠ .CANCELLED

/-- The unique index refuses another row of the key. -/
def State.taken (s : State) (key : Option String) : Prop :=
  key ≠ none ∧ ∃ t ∈ s.swaps, t.idempotencyKey = key

instance State.decidableTaken (s : State) (key : Option String) : Decidable (s.taken key) :=
  inferInstanceAs (Decidable (key ≠ none ∧ ∃ t ∈ s.swaps, t.idempotencyKey = key))

def State.setStatus (s : State) (swapId : Option SwapId) (status : SwapStatus) : State :=
  swapId.elim s fun id => ⟨s.swaps.modify id fun t => { t with status := status }⟩

def Proc.enter (p : Proc) (stage : Stage) : Proc := { p with stage := stage }

/-- A step that goes well. -/
def complete (s : State) (p : Proc) : State × Proc :=
  match p.stage with
  | .checkIdempotency =>
    match (p.idempotencyKey.filter (· ≠ "")).bind s.existing with
    | some id => (s, p.enter (.returned id))
    | none    => (s, p.enter .guards)
  | .guards => (s, p.enter .createRecord)
  | .createRecord =>
    if s.taken p.idempotencyKey then (s, p.enter .raised)
    else (⟨s.swaps ++ [⟨p.userId, p.idempotencyKey, .EXECUTING⟩]⟩,
      { p with stage := .simulate, swapId := some s.swaps.length })
  | .simulate         => (s, p.enter .execute)
  | .markSimFailed    => (s.setStatus p.swapId .FAILED, p.enter .raised)
  | .execute          => (s, { p with stage := .updateTxHash, started := true })
  | .updateTxHash     => (s.setStatus p.swapId .SUBMITTED, p.enter .recordSpend)
  | .recordSpend      => (s, p.enter .invalidateCache)
  | .invalidateCache  => (s, p.enter .publishSubmitted)
  | .publishSubmitted => (s, p.enter .copyHook)
  | .copyHook         => (s, p.enter .settlePosition)
  | .settlePosition   => (s, p.enter .refetch)
  | .refetch          => (s, p.enter (p.swapId.elim .raised .returned))
  | .markFailed       => (s.setStatus p.swapId .FAILED, p.enter .publishFailed)
  | .publishFailed    => (s, p.enter .raised)
  | .returned _ | .raised | .crashed => (s, p)

/-- Where an exception leads to. What follows the broadcast is guarded one by one, but for the two
sessions on the record; the event bus catches its own exceptions. -/
def Stage.onException : Stage → Stage
  | .execute | .updateTxHash | .refetch => .markFailed
  | .recordSpend      => .invalidateCache
  | .invalidateCache  => .publishSubmitted
  | .publishSubmitted => .copyHook
  | .copyHook         => .settlePosition
  | .settlePosition   => .refetch
  | .checkIdempotency | .guards | .createRecord | .simulate | .markSimFailed | .markFailed
  | .publishFailed | .returned _ | .raised | .crashed => .raised

def Stage.ended : Stage → Bool
  | .returned _ | .raised | .crashed => true
  | _ => false

def step (s : State) (p : Proc) (answer : Answer) : Except Error (State × Proc) :=
  if p.stage.ended then .error .NotNext
  else match answer with
  | .ok      => .ok (complete s p)
  | .blocked =>
    if p.stage = .simulate then .ok (s, p.enter .markSimFailed) else .error .NotNext
  | .fails applied crash =>
    .ok (if applied then (complete s p).1 else s,
      { p with
          stage := if crash then .crashed else p.stage.onException
          started := p.started || p.stage = .execute })

def program : Program State Proc Answer Empty Error := ⟨step, nofun⟩

abbrev Config (n : ℕ) := Program.Config State Proc n

abbrev Action (n : ℕ) := Program.Action n Answer Empty

structure Call where
  userId : UserId
  idempotencyKey : Option String

def initial {n : ℕ} (calls : Fin n → Call) : Config n :=
  ⟨⟨[]⟩, fun i => ⟨(calls i).userId, (calls i).idempotencyKey, .checkIdempotency, none, false⟩⟩

/-! ### Records and their calls -/

def State.keys (s : State) : List (Option String) := s.swaps.map SwapTransaction.idempotencyKey

/-- The records that a call has made. -/
def records (p : Proc) : SwapId → ℕ := p.swapId.elim 0 fun id => Pi.single id 1

/-- The index is unique, and no two calls have one record. -/
structure Sound (s : State) (m : SwapId → ℕ) : Prop where
  unique : ∀ (i j : SwapId) key, s.keys[i]? = some (some key) → s.keys[j]? = some (some key) → i = j
  single : ∀ id, m id ≤ 1
  stored : ∀ id, s.keys.length ≤ id → m id = 0

def Stage.beforeRecord : Stage → Bool
  | .checkIdempotency | .guards | .createRecord => true
  | _ => false

def Stage.afterRecord : Stage → Bool
  | .checkIdempotency | .guards | .createRecord | .returned _ | .raised | .crashed => false
  | _ => true

/-- The record of a call is there from its creation on, and what it returns has its key. -/
structure Knows (s : State) (p : Proc) : Prop where
  own : ∀ id, p.swapId = some id → s.keys[id]? = some p.idempotencyKey
  before : p.stage.beforeRecord = true → p.swapId = none
  after : p.stage.afterRecord = true → p.swapId ≠ none
  started : p.started = true → p.swapId ≠ none
  found : ∀ id, p.stage = .returned id → s.keys[id]? = some p.idempotencyKey

variable {s s' : State} {p p' q : Proc} {answer : Answer} {m rest : SwapId → ℕ} {id : SwapId}

@[simp] lemma keys_setStatus (swapId : Option SwapId) (status : SwapStatus) :
    (s.setStatus swapId status).keys = s.keys := by
  cases swapId with
  | none    => rfl
  | some id =>
    refine List.ext_getElem? fun i => ?_
    simp only [State.keys, State.setStatus, Option.elim_some, List.getElem?_map,
      List.getElem?_modify]
    cases s.swaps[i]? with
    | none   => rfl
    | some t =>
      simp only [Option.map_eq_map, Option.map_some]
      split_ifs <;> rfl

lemma getElem?_of_existing {key : String} (h : s.existing key = some id) :
    s.keys[id]? = some (some key) := by
  obtain ⟨hfind, -⟩ := Option.filter_eq_some_iff.mp h
  obtain ⟨hid, hkey, -⟩ := List.findIdx?_eq_some_iff_getElem.mp hfind
  have hkey' : s.swaps[id].idempotencyKey = some key := by simpa using hkey
  rw [State.keys, List.getElem?_map, List.getElem?_eq_getElem hid, Option.map_some, hkey']

lemma taken_iff {key : Option String} : s.taken key ↔ key ≠ none ∧ key ∈ s.keys := by
  simp [State.taken, State.keys]

/-- What a step does to the keys: nothing, or it records a key that was free. -/
lemma keys_complete (s : State) (p : Proc) :
    (complete s p).1.keys = s.keys ∧ (complete s p).2.swapId = p.swapId ∨
    p.stage = .createRecord ∧ ¬ s.taken p.idempotencyKey ∧
      (complete s p).1.keys = s.keys ++ [p.idempotencyKey] ∧
      (complete s p).2.swapId = some s.keys.length := by
  unfold complete
  cases hstage : p.stage with
  | checkIdempotency =>
    dsimp only
    split <;> exact .inl ⟨rfl, rfl⟩
  | createRecord =>
    dsimp only
    split_ifs with htaken
    · exact .inl ⟨rfl, rfl⟩
    · exact .inr ⟨rfl, htaken, by simp [State.keys], by simp [State.keys]⟩
  | _ => simp [Proc.enter]

lemma prefix_complete (s : State) (p : Proc) : s.keys <+: (complete s p).1.keys := by
  rcases keys_complete s p with ⟨h, -⟩ | ⟨-, -, h, -⟩
  · rw [h]
  · rw [h]
    exact List.prefix_append _ _

lemma getElem?_of_prefix {l l' : List (Option String)} {key : Option String} (h : l <+: l')
    (hid : l[id]? = some key) : l'[id]? = some key := by
  obtain ⟨tail, rfl⟩ := h
  rw [List.getElem?_append_left (List.getElem?_eq_some_iff.mp hid).1, hid]

lemma Knows.mono (h : Knows s p) (hs : s.keys <+: s'.keys) : Knows s' p where
  own id hid := getElem?_of_prefix hs (h.own id hid)
  before := h.before
  after := h.after
  started := h.started
  found id hid := getElem?_of_prefix hs (h.found id hid)

lemma getElem?_concat {l : List (Option String)} {key key' : Option String}
    (h : (l ++ [key'])[id]? = some key) : l[id]? = some key ∨ id = l.length ∧ key = key' := by
  grind

/-- The index stays unique. -/
lemma sound_complete (h : Sound s m) (p : Proc) : Sound (complete s p).1 m := by
  rcases keys_complete s p with ⟨hkeys, -⟩ | ⟨-, htaken, hkeys, -⟩
  · exact ⟨hkeys ▸ h.unique, h.single, hkeys ▸ h.stored⟩
  · rw [taken_iff] at htaken
    refine ⟨fun i j key hi hj => ?_, h.single, fun id hid => h.stored id ?_⟩
    · have hold : ∀ k : ℕ, s.keys[k]? = some (some key) → p.idempotencyKey ≠ some key := by
        intro k hk heq
        exact htaken ⟨heq ▸ Option.some_ne_none key, heq ▸ List.mem_of_getElem? hk⟩
      rw [hkeys] at hi hj
      rcases getElem?_concat hi with hi | ⟨rfl, hkey⟩ <;>
        rcases getElem?_concat hj with hj | ⟨rfl, hkey'⟩
      · exact h.unique i j key hi hj
      · exact absurd hkey'.symm (hold i hi)
      · exact absurd hkey.symm (hold j hj)
      · rfl
    · rw [hkeys, List.length_append] at hid
      exact (Nat.le_add_right _ _).trans hid

/-- A call moves on without a new record. -/
lemma Knows.move (h : Knows s p) (hs : s.keys <+: s'.keys)
    (hkey : p'.idempotencyKey = p.idempotencyKey) (hid : p'.swapId = p.swapId)
    (hbefore : p'.stage.beforeRecord = true → p.stage.beforeRecord = true)
    (hafter : p'.stage.afterRecord = true ∨ p'.started = true →
      p.stage.afterRecord = true ∨ p.started = true)
    (hfound : ∀ id, p'.stage = .returned id → s.keys[id]? = some p.idempotencyKey) :
    Knows s' p' := by
  have hmade : p.stage.afterRecord = true ∨ p.started = true → p'.swapId ≠ none := by
    rw [hid]
    rintro (hstage | hstarted)
    · exact h.after hstage
    · exact h.started hstarted
  refine ⟨fun id hown => ?_, fun hstage => ?_, fun hstage => hmade (hafter (.inl hstage)),
    fun hstarted => hmade (hafter (.inr hstarted)), fun id hstage => ?_⟩
  · rw [hkey]
    exact getElem?_of_prefix hs (h.own id (hid ▸ hown))
  · rw [hid]
    exact h.before (hbefore hstage)
  · rw [hkey]
    exact getElem?_of_prefix hs (hfound id hstage)

/-- A step that goes well keeps what its call knows. -/
lemma knows_complete (h : Knows s p) (hended : p.stage.ended = false) :
    Knows (complete s p).1 (complete s p).2 := by
  have hs := prefix_complete s p
  unfold complete at hs ⊢
  cases hstage : p.stage with
  | checkIdempotency =>
    rw [hstage] at hs
    dsimp only
    split
    · rename_i id hexisting
      refine h.move List.prefix_rfl rfl rfl nofun (fun hor => hor.imp nofun fun h => h) ?_
      rintro _ ⟨rfl⟩
      obtain ⟨key, hkey, hfind⟩ := Option.bind_eq_some_iff.mp hexisting
      rw [(Option.filter_eq_some_iff.mp hkey).1]
      exact getElem?_of_existing hfind
    · exact h.move List.prefix_rfl rfl rfl (fun _ => hstage ▸ rfl)
        (fun hor => hor.imp nofun fun h => h) nofun
  | guards =>
    exact h.move List.prefix_rfl rfl rfl (fun _ => hstage ▸ rfl)
      (fun hor => hor.imp nofun fun h => h) nofun
  | createRecord =>
    rw [hstage] at hs
    dsimp only at hs ⊢
    split_ifs at hs ⊢
    · exact h.move List.prefix_rfl rfl rfl nofun (fun hor => hor.imp nofun fun h => h) nofun
    · refine ⟨?_, nofun, nofun, nofun, nofun⟩
      rintro _ ⟨rfl⟩
      simp [State.keys]
  | refetch =>
    rw [hstage] at hs
    obtain ⟨id, hid⟩ := Option.ne_none_iff_exists'.mp (h.after (hstage ▸ rfl))
    dsimp only
    rw [hid]
    refine h.move List.prefix_rfl rfl rfl nofun (fun _ => .inl (hstage ▸ rfl)) ?_
    rintro _ ⟨rfl⟩
    exact h.own id hid
  | returned id => rw [hstage] at hended; cases hended
  | raised => rw [hstage] at hended; cases hended
  | crashed => rw [hstage] at hended; cases hended
  | _ =>
    rw [hstage] at hs
    exact h.move hs rfl rfl nofun (fun _ => .inl (hstage ▸ rfl)) nofun

/-- So does one that fails. -/
lemma knows_fails (h : Knows s p) (hs : s.keys <+: s'.keys) (crash : Bool) :
    Knows s' { p with
      stage := if crash then .crashed else p.stage.onException
      started := p.started || p.stage = .execute } := by
  refine h.move hs rfl rfl ?_ ?_ ?_
  all_goals
    cases crash <;> cases p.stage <;>
      simp [Stage.onException, Stage.beforeRecord, Stage.afterRecord]

/-- A new record is nobody else's. -/
lemma sound_records (h : Sound s (records p + rest)) (hK : Knows s p) :
    Sound (complete s p).1 (records (complete s p).2 + rest) := by
  have h' := sound_complete h p
  rcases keys_complete s p with ⟨-, hid⟩ | ⟨hstage, -, hkeys, hid⟩
  · rwa [records, hid]
  · have hnone : records p = 0 := by
      rw [records, hK.before (hstage ▸ rfl)]
      rfl
    rw [hnone, zero_add] at h h'
    have hfree : rest s.keys.length = 0 := h.stored _ le_rfl
    refine ⟨h'.unique, fun id => ?_, fun id hlength => ?_⟩
    · rw [records, hid, Option.elim_some, Pi.add_apply]
      rcases eq_or_ne id s.keys.length with rfl | hne
      · rw [Pi.single_eq_same, hfree]
      · rw [Pi.single_eq_of_ne hne, zero_add]
        exact h'.single id
    · have hne : id ≠ s.keys.length := by
        rw [hkeys, List.length_append, List.length_singleton] at hlength
        exact (Nat.lt_of_succ_le hlength).ne'
      rw [records, hid, Option.elim_some, Pi.add_apply, Pi.single_eq_of_ne hne, zero_add]
      exact h'.stored id hlength

/-- A step goes well, or is blocked or fails, and then makes no record for its call. -/
lemma step_cases (h : step s p answer = .ok (s', p')) : p.stage.ended = false ∧
    (s' = (complete s p).1 ∧ p' = (complete s p).2 ∨
      s' = s ∧ p' = p.enter .markSimFailed ∧ p.stage = .simulate ∨
      (s' = s ∨ s' = (complete s p).1) ∧ ∃ crash : Bool, p' = { p with
        stage := if crash then .crashed else p.stage.onException
        started := p.started || p.stage = .execute }) := by
  unfold step at h
  by_cases hended : p.stage.ended = true
  · rw [if_pos hended] at h
    cases h
  · rw [if_neg hended] at h
    refine ⟨Bool.eq_false_of_not_eq_true hended, ?_⟩
    cases answer with
    | ok =>
      obtain ⟨rfl, rfl⟩ := Prod.mk.inj (Except.ok.inj h)
      exact .inl ⟨rfl, rfl⟩
    | blocked =>
      dsimp only at h
      by_cases hstage : p.stage = .simulate
      · rw [if_pos hstage] at h
        obtain ⟨rfl, rfl⟩ := Prod.mk.inj (Except.ok.inj h)
        exact .inr (.inl ⟨rfl, rfl, hstage⟩)
      · rw [if_neg hstage] at h
        cases h
    | fails applied crash =>
      obtain ⟨hs, rfl⟩ := Prod.mk.inj (Except.ok.inj h)
      refine .inr (.inr ⟨?_, crash, rfl⟩)
      cases applied
      · exact .inl hs.symm
      · exact .inr hs.symm

lemma prefix_step (h : step s p answer = .ok (s', p')) : s.keys <+: s'.keys := by
  obtain ⟨-, ⟨rfl, -⟩ | ⟨rfl, -⟩ | ⟨rfl | rfl, -⟩⟩ := step_cases h
  · exact prefix_complete s p
  · exact List.prefix_rfl
  · exact List.prefix_rfl
  · exact prefix_complete s p

lemma step_keeps (hI : Sound s (records p + rest)) (hK : Knows s p)
    (h : step s p answer = .ok (s', p')) : Sound s' (records p' + rest) ∧ Knows s' p' := by
  obtain ⟨hended, ⟨rfl, rfl⟩ | ⟨rfl, rfl, hstage⟩ | ⟨hs, crash, rfl⟩⟩ := step_cases h
  · exact ⟨sound_records hI hK, knows_complete hK hended⟩
  · exact ⟨hI, hK.move List.prefix_rfl rfl rfl nofun (fun _ => .inl (hstage ▸ rfl)) nofun⟩
  · rcases hs with rfl | rfl
    · exact ⟨hI, knows_fails hK List.prefix_rfl crash⟩
    · exact ⟨sound_complete hI p, knows_fails hK (prefix_complete s p) crash⟩

lemma sound_inductive :
    program.Inductive records Sound Knows (fun _ _ _ _ => True) (fun _ _ _ => True) where
  step hI hK _ h := step_keeps hI hK h
  stable _ _ _ h _ hq := hq.mono (prefix_step h)
  environment := by
    intro s s' event
    cases event

lemma sound_initial {n : ℕ} (calls : Fin n → Call) :
    Program.Invariant records Sound Knows (initial calls) where
  shared := by
    have hnone : (initial calls).total records = 0 := Finset.sum_eq_zero fun _ _ => rfl
    rw [hnone]
    exact ⟨nofun, fun _ => zero_le_one, fun _ _ => rfl⟩
  knows i := ⟨nofun, fun _ => rfl, nofun, nofun, nofun⟩

/-! ### One execution for a key -/

lemma key_complete (s : State) (p : Proc) :
    (complete s p).2.idempotencyKey = p.idempotencyKey := by
  unfold complete
  cases p.stage with
  | checkIdempotency =>
    dsimp only
    split <;> rfl
  | createRecord =>
    dsimp only
    split_ifs <;> rfl
  | _ => rfl

lemma key_step (h : step s p answer = .ok (s', p')) : p'.idempotencyKey = p.idempotencyKey := by
  obtain ⟨-, ⟨-, rfl⟩ | ⟨-, rfl, -⟩ | ⟨-, -, rfl⟩⟩ := step_cases h
  · exact key_complete s p
  · rfl
  · rfl

lemma key_run {n : ℕ} (calls : Fin n → Call) (acts : List (Action n)) (i : Fin n) :
    (((program.machine n).run (initial calls) acts).procs i).idempotencyKey =
      (calls i).idempotencyKey := by
  refine Machine.run_induction (I := fun c : Config n => (c.procs i).idempotencyKey =
    (calls i).idempotencyKey) (fun c a c' hc hstep => ?_) rfl acts
  cases a with
  | environment event => cases event
  | take j answer =>
    obtain ⟨s', p', hp, rfl⟩ := Program.take_ok hstep
    rcases eq_or_ne i j with rfl | hij
    · simpa only [Function.update_self] using (key_step hp).trans hc
    · simpa only [Function.update_of_ne hij] using hc

/-- Two calls have two records. -/
lemma records_disjoint {n : ℕ} {c : Config n} (h : Program.Invariant records Sound Knows c)
    {i j : Fin n} (hij : i ≠ j) (hi : (c.procs i).swapId = some id) :
    (c.procs j).swapId ≠ some id := by
  intro hj
  have hsingle := h.shared.single id
  rw [c.total_eq records i, Pi.add_apply] at hsingle
  have hothers : records (c.procs j) id ≤ c.others records i id := c.le_others records hij.symm id
  have hown : ∀ {p : Proc}, p.swapId = some id → records p id = 1 := by
    intro p hp
    rw [records, hp, Option.elim_some, Pi.single_eq_same]
  rw [hown hi] at hsingle
  rw [hown hj] at hothers
  omega

/-- Of two calls of a key only one starts the executor, and the other returns that one's record if
it returns anything. -/
structure Once {n : ℕ} (c : Config n) (i j : Fin n) : Prop where
  started : (c.procs i).started = true → (c.procs j).started = false
  ends : (c.procs i).started = true → (c.procs j).stage.ended = true →
    (∃ id, (c.procs i).swapId = some id ∧ (c.procs j).stage = .returned id) ∨
      (c.procs j).stage = .raised ∨ (c.procs j).stage = .crashed

theorem attempts_once {n : ℕ} (calls : Fin n → Call) (acts : List (Action n)) {i j : Fin n}
    (hij : i ≠ j) {key : String} (hi : (calls i).idempotencyKey = some key)
    (hj : (calls j).idempotencyKey = some key) :
    Once ((program.machine n).run (initial calls) acts) i j := by
  have h := sound_inductive.run_always acts (sound_initial calls)
  have hikey := (key_run calls acts i).trans hi
  have hjkey := (key_run calls acts j).trans hj
  generalize (program.machine n).run (initial calls) acts = c at h hikey hjkey ⊢
  constructor
  · intro hstarted
    rw [← Bool.not_eq_true]
    intro hstarted'
    obtain ⟨id, hid⟩ := Option.ne_none_iff_exists'.mp ((h.knows i).started hstarted)
    obtain ⟨id', hid'⟩ := Option.ne_none_iff_exists'.mp ((h.knows j).started hstarted')
    have hrow := (h.knows i).own id hid
    have hrow' := (h.knows j).own id' hid'
    rw [hikey] at hrow
    rw [hjkey] at hrow'
    obtain rfl := h.shared.unique id id' key hrow hrow'
    exact records_disjoint h hij hid hid'
  · intro hstarted hended
    obtain ⟨id, hid⟩ := Option.ne_none_iff_exists'.mp ((h.knows i).started hstarted)
    cases hstage : (c.procs j).stage with
    | returned id' =>
      have hrow := (h.knows i).own id hid
      have hrow' := (h.knows j).found id' hstage
      rw [hikey] at hrow
      rw [hjkey] at hrow'
      obtain rfl := h.shared.unique id id' key hrow hrow'
      exact .inl ⟨id, hid, rfl⟩
    | raised  => exact .inr (.inl rfl)
    | crashed => exact .inr (.inr rfl)
    | _ =>
      rw [hstage] at hended
      cases hended

/-- A key that is sent twice, by two engines. -/
def twice : Fin 2 → Call := fun _ => ⟨7, some "swap-1"⟩

/-- The first call fails after its broadcast, and the second one finds its record in the way. -/
theorem second_attempt_raises :
    Once ((program.machine 2).run (initial twice)
      [.take 0 .ok, .take 0 .ok, .take 1 .ok, .take 1 .ok, .take 0 .ok, .take 0 .ok, .take 0 .ok,
        .take 0 (.fails true false), .take 0 .ok, .take 0 .ok, .take 1 .ok]) 0 1 :=
  attempts_once twice _ (by decide) rfl rfl

end Suwappu.SwapEngine.Attempts
