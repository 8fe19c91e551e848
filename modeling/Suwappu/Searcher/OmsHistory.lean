import Suwappu.Searcher.Oms

/-!
# The history of an order

What each call of the OMS does, and what the accepted calls of a session say about an order: its
submissions have increasing sequences in one slot and were all affordable, the last of them is what
the order holds, and it has one outcome at most.
-/

namespace Suwappu.Searcher

variable {oms oms' : BuilderOms} {call : OmsCall} {key : OrderKey} {order current : ManagedOrder}
  {request : SubmissionRequest} {ack : TransportAck} {f g : ManagedOrder → ManagedOrder}
  {event : Option EventEnvelope} {s : Session}

/-! ### The map of orders -/

@[simp] lemma insert_self : (oms.insert key order).orders key = some order :=
  Function.update_self ..

lemma insert_of_ne {key' : OrderKey} (h : key' ≠ key) :
    (oms.insert key order).orders key' = oms.orders key' := Function.update_of_ne h ..

lemma modify_of_some (h : oms.orders key = some order) :
    oms.modify key f = oms.insert key (f order) := by
  rw [BuilderOms.modify, BuilderOms.insert, h, Option.map_some]

lemma modify_insert : (oms.insert key order).modify key f = oms.insert key (f order) := by
  rw [modify_of_some insert_self, BuilderOms.insert, BuilderOms.insert, BuilderOms.insert]
  dsimp only
  rw [Function.update_idem]

lemma insert_eq_self (h : oms.orders key = some order) : oms.insert key order = oms := by
  rw [BuilderOms.insert, ← h, Function.update_eq_self]

/-! ### What a call does -/

/-- The order once a replacement is accepted. -/
def ManagedOrder.replacedBy (current : ManagedOrder) (request : SubmissionRequest)
    (ack : TransportAck) : ManagedOrder := { current with
  state := .Live
  replaceSequence := request.replaceSequence
  builderPaymentWei := request.builderPaymentWei
  profitBeforeBidWei := request.profitBeforeBidWei
  lastSubmitTsNs := request.submitTsNs
  slotPhaseMs := request.slotPhaseMs
  simulationConfidenceBps := request.simulationConfidenceBps
  submissionId := some ack.submissionId }

/-- The calls that succeed, with the orders they leave and their events. -/
inductive Accepted (oms : BuilderOms) :
    OmsCall → BuilderOms → Option EventEnvelope → Prop
  | submit (transport : BuilderTransport) (request : SubmissionRequest) (ack : TransportAck)
      (hvalid : validateRequest request = .ok ()) (hnew : oms.orders request.key = none) :
      Accepted oms (.submit transport request) (oms.insert request.key (request.order ack))
        (some (submissionEvent request))
  | replace (transport : BuilderTransport) (request : SubmissionRequest) (ack : TransportAck)
      (current : ManagedOrder) (hvalid : validateRequest request = .ok ())
      (hcurrent : oms.orders request.key = some current)
      (hopen : current.state.isTerminal = false) (hslot : current.slot = request.slot)
      (hsequence : current.replaceSequence < request.replaceSequence) :
      Accepted oms (.replace transport request)
        (oms.insert request.key (current.replacedBy request ack)) (some (submissionEvent request))
  | cancel (transport : BuilderTransport) (builder opportunityId : String)
      (current : ManagedOrder) (hcurrent : oms.orders (builder, opportunityId) = some current)
      (hopen : current.state.isTerminal = false) :
      Accepted oms (.cancel transport builder opportunityId)
        (oms.insert (builder, opportunityId) { current with state := .Dropped }) none
  | observeOutcome (builder opportunityId : String) (slot : U64) (included : Bool)
      (failure : Option String) (observedTsNs : U64) (current : ManagedOrder)
      (hcurrent : oms.orders (builder, opportunityId) = some current)
      (hopen : current.state.isTerminal = false) (hslot : current.slot = slot) :
      Accepted oms (.observeOutcome builder opportunityId slot included failure observedTsNs)
        (oms.insert (builder, opportunityId)
          { current with state := if included then .Landed else .Reverted })
        (some (outcomeEvent (builder, opportunityId) slot (if included then "1" else "0") included
          failure observedTsNs))
  | expire (builder opportunityId : String) (observedTsNs : U64) (current : ManagedOrder)
      (hcurrent : oms.orders (builder, opportunityId) = some current)
      (hopen : current.state.isTerminal = false) :
      Accepted oms (.expire builder opportunityId observedTsNs)
        (oms.insert (builder, opportunityId) { current with state := .Expired })
        (some (outcomeEvent (builder, opportunityId) current.slot "expired" false (some "expired")
          observedTsNs))

/-- The result of a call: it is accepted, or it fails and leaves every order as it was. -/
def Settled (oms : BuilderOms) (call : OmsCall) :
    BuilderOms × Except OmsError (Option EventEnvelope) → Prop
  | (oms', .ok event) => Accepted oms call oms' event
  | (oms', .error _)  => oms' = oms

lemma submit_settled (transport : BuilderTransport) (request : SubmissionRequest) :
    Settled oms (.submit transport request) (oms.step (.submit transport request)) := by
  simp only [BuilderOms.step, BuilderOms.submit]
  split
  · rfl
  · rename_i hvalid
    split
    · rfl
    · rename_i hnew
      split
      · rfl
      · exact .submit transport request _ hvalid (by simpa using hnew)

lemma replace_settled (transport : BuilderTransport) (request : SubmissionRequest) :
    Settled oms (.replace transport request) (oms.step (.replace transport request)) := by
  simp only [BuilderOms.step, BuilderOms.replace]
  split
  · rfl
  rename_i hvalid
  split
  · rfl
  rename_i current hcurrent
  split
  · rfl
  rename_i hopen
  split
  · rfl
  rename_i hslot
  split
  · rfl
  rename_i hsequence
  rw [modify_of_some hcurrent]
  split
  · rw [modify_insert]
    exact insert_eq_self hcurrent
  · rename_i ack hack
    rw [insert_self]
    dsimp only
    rw [modify_insert, modify_insert]
    exact .replace transport request ack current hvalid hcurrent (by simpa using hopen)
      (by simpa using hslot) (not_le.mp hsequence)

lemma cancel_settled (transport : BuilderTransport) (builder opportunityId : String) :
    Settled oms (.cancel transport builder opportunityId)
      (oms.step (.cancel transport builder opportunityId)) := by
  simp only [BuilderOms.step, BuilderOms.cancel]
  split
  · rfl
  rename_i current hcurrent
  split
  · rfl
  rename_i hopen
  rw [modify_of_some hcurrent]
  split
  · rw [modify_insert]
    exact insert_eq_self hcurrent
  · rw [modify_insert]
    exact .cancel transport builder opportunityId current hcurrent (by simpa using hopen)

lemma observeOutcome_settled (builder opportunityId : String) (slot : U64) (included : Bool)
    (failure : Option String) (observedTsNs : U64) :
    Settled oms (.observeOutcome builder opportunityId slot included failure observedTsNs)
      (oms.step (.observeOutcome builder opportunityId slot included failure observedTsNs)) := by
  simp only [BuilderOms.step, BuilderOms.observeOutcome]
  split
  · rfl
  rename_i current hcurrent
  split
  · rfl
  rename_i hopen
  split
  · rfl
  rename_i hslot
  rw [modify_of_some hcurrent]
  exact .observeOutcome builder opportunityId slot included failure observedTsNs current hcurrent
    (by simpa using hopen) (by simpa using hslot)

lemma expire_settled (builder opportunityId : String) (observedTsNs : U64) :
    Settled oms (.expire builder opportunityId observedTsNs)
      (oms.step (.expire builder opportunityId observedTsNs)) := by
  simp only [BuilderOms.step, BuilderOms.expire]
  split
  · rfl
  rename_i current hcurrent
  split
  · rfl
  rename_i hopen
  rw [modify_of_some hcurrent]
  exact .expire builder opportunityId observedTsNs current hcurrent (by simpa using hopen)

lemma step_settled (oms : BuilderOms) (call : OmsCall) : Settled oms call (oms.step call) := by
  cases call with
  | submit transport request => exact submit_settled transport request
  | replace transport request => exact replace_settled transport request
  | cancel transport builder opportunityId => exact cancel_settled transport builder opportunityId
  | observeOutcome builder opportunityId slot included failure observedTsNs =>
    exact observeOutcome_settled builder opportunityId slot included failure observedTsNs
  | expire builder opportunityId observedTsNs =>
    exact expire_settled builder opportunityId observedTsNs

/-- A call changes the session by an accepted call, or not at all. -/
lemma call_cases (s : Session) (call : OmsCall) : s.call call = s ∨
    ∃ oms' event, Accepted s.oms call oms' event ∧
      s.call call = ⟨oms', s.accepted ++ [(call, event)]⟩ := by
  have hsettled := step_settled s.oms call
  rw [Session.call]
  match h : s.oms.step call with
  | (oms', .ok event) =>
    rw [h] at hsettled
    exact .inr ⟨oms', event, hsettled, rfl⟩
  | (oms', .error e)  =>
    rw [h] at hsettled
    obtain rfl : oms' = s.oms := hsettled
    exact .inl rfl

/-! ### What is recorded of an order -/

/-- An event that reports the outcome of the order in its slot. -/
def IsOutcome (key : OrderKey) (slot : U64) (event : EventEnvelope) : Prop :=
  ∃ suffix included failure observedTsNs,
    (suffix = (if included then "1" else "0") ∨ suffix = "expired") ∧
      event = outcomeEvent key slot suffix included failure observedTsNs

/-- The order as its last request left it. -/
structure Holds (order : ManagedOrder) (request : SubmissionRequest) : Prop where
  slot : order.slot = request.slot
  replaceSequence : order.replaceSequence = request.replaceSequence
  builderPaymentWei : order.builderPaymentWei = request.builderPaymentWei
  profitBeforeBidWei : order.profitBeforeBidWei = request.profitBeforeBidWei

/-- An order is live, or was dropped, or has the one outcome it came to. -/
inductive Resolved (key : OrderKey) (order : ManagedOrder) : List EventEnvelope → Prop
  | live (h : order.state = .Live) : Resolved key order []
  | dropped (h : order.state = .Dropped) : Resolved key order []
  | decided {event : EventEnvelope} (h : order.state.isTerminal = true)
      (houtcome : IsOutcome key order.slot event) : Resolved key order [event]

/-- The accepted submissions of one order: in one slot, each with a higher sequence. -/
def Successive (submissions : List SubmissionRequest) : Prop :=
  submissions.Pairwise fun request request' =>
    request.replaceSequence < request'.replaceSequence ∧ request.slot = request'.slot

inductive History (key : OrderKey) :
    Option ManagedOrder → List SubmissionRequest → List EventEnvelope → Prop
  | unseen : History key none [] []
  | seen {order : ManagedOrder} {earlier : List SubmissionRequest} {last : SubmissionRequest}
      {outcomes : List EventEnvelope}
      (hvalid : ∀ request ∈ earlier ++ [last], validateRequest request = .ok ())
      (hsuccessive : Successive (earlier ++ [last])) (hlast : Holds order last)
      (hresolved : Resolved key order outcomes) :
      History key (some order) (earlier ++ [last]) outcomes

lemma Resolved.of_open {outcomes : List EventEnvelope} (h : Resolved key order outcomes)
    (hopen : order.state.isTerminal = false) : outcomes = [] := by
  cases h with
  | live => rfl
  | dropped => rfl
  | decided hterminal => rw [hopen] at hterminal; simp at hterminal

lemma Successive.concat {earlier : List SubmissionRequest} {last : SubmissionRequest}
    (h : Successive (earlier ++ [last]))
    (hnext : last.replaceSequence < request.replaceSequence ∧ last.slot = request.slot) :
    Successive (earlier ++ [last] ++ [request]) := by
  refine List.pairwise_append.mpr ⟨h, List.pairwise_singleton .., fun r hr r' hr' => ?_⟩
  rw [List.mem_singleton.mp hr']
  rcases List.mem_append.mp hr with hr | hr
  · have hlast := (List.pairwise_append.mp h).2.2 r hr last (List.mem_singleton_self _)
    exact ⟨hlast.1.trans hnext.1, hlast.2.trans hnext.2⟩
  · rwa [List.mem_singleton.mp hr]

/-- A replacement continues the history of its order. -/
lemma History.replaced {submissions : List SubmissionRequest} {outcomes : List EventEnvelope}
    (h : History key (some current) submissions outcomes)
    (hvalid : validateRequest request = .ok ()) (hopen : current.state.isTerminal = false)
    (hslot : current.slot = request.slot)
    (hsequence : current.replaceSequence < request.replaceSequence) :
    History key (some (current.replacedBy request ack)) (submissions ++ [request]) outcomes := by
  cases h with
  | seen hvalid' hsuccessive hlast hresolved =>
    rw [hresolved.of_open hopen]
    refine .seen (fun r hr => ?_) (hsuccessive.concat ?_) ⟨hslot, rfl, rfl, rfl⟩ (.live rfl)
    · rcases List.mem_append.mp hr with hr | hr
      · exact hvalid' r hr
      · rwa [List.mem_singleton.mp hr]
    · rw [← hlast.replaceSequence, ← hlast.slot]
      exact ⟨hsequence, hslot⟩

/-- A call that ends the order keeps its submissions. -/
lemma History.ended {submissions : List SubmissionRequest} {outcomes outcomes' : List EventEnvelope}
    {state : OrderState} (h : History key (some current) submissions outcomes)
    (hresolved : Resolved key { current with state } outcomes') :
    History key (some { current with state }) submissions outcomes' := by
  cases h with
  | seen hvalid hsuccessive hlast =>
    exact .seen hvalid hsuccessive
      ⟨hlast.slot, hlast.replaceSequence, hlast.builderPaymentWei, hlast.profitBeforeBidWei⟩
      hresolved

lemma History.of_none {submissions : List SubmissionRequest} {outcomes : List EventEnvelope}
    (h : History key none submissions outcomes) : submissions = [] ∧ outcomes = [] := by
  cases h
  exact ⟨rfl, rfl⟩

lemma History.outcomes_eq_nil {submissions : List SubmissionRequest}
    {outcomes : List EventEnvelope} (h : History key (some current) submissions outcomes)
    (hopen : current.state.isTerminal = false) : outcomes = [] := by
  cases h with
  | seen _ _ _ hresolved => exact hresolved.of_open hopen

/-! ### Sessions -/

/-- The session after an accepted call. -/
abbrev Session.after (s : Session) (oms' : BuilderOms) (call : OmsCall)
    (event : Option EventEnvelope) : Session := ⟨oms', s.accepted ++ [(call, event)]⟩

lemma filterMap_concat {α β : Type} (f : α → Option β) (l : List α) (a : α) :
    (l ++ [a]).filterMap f = l.filterMap f ++ (f a).toList := by
  rw [List.filterMap_append]
  cases h : f a <;> simp [h]

lemma submissions_after (key : OrderKey) : (s.after oms' call event).submissions key =
    s.submissions key ++ (if call.key = key then call.request? else none).toList :=
  filterMap_concat ..

lemma outcomes_after (key : OrderKey) : (s.after oms' call event).outcomes key =
    s.outcomes key ++ (if call.key = key ∧ call.decides = true then event else none).toList :=
  filterMap_concat ..

/-- What the accepted calls of a session say about its orders. -/
def Recorded (s : Session) : Prop :=
  ∀ key, History key (s.oms.orders key) (s.submissions key) (s.outcomes key)

/-- A call is about one order. -/
lemma Accepted.frame (h : Accepted oms call oms' event) (hne : key ≠ call.key) :
    oms'.orders key = oms.orders key := by
  cases h <;> exact insert_of_ne hne

/-- A call on an order that exists needs an open one, and leaves it in its slot. -/
lemma Accepted.of_some (h : Accepted oms call oms' event)
    (horder : oms.orders call.key = some order) : order.state.isTerminal = false ∧
      ∃ order', oms'.orders call.key = some order' ∧ order'.slot = order.slot := by
  cases h with
  | submit _ _ _ _ hnew => exact absurd (horder.symm.trans hnew) (by simp)
  | replace _ _ _ current _ hcurrent hopen =>
    obtain rfl := Option.some.inj (horder.symm.trans hcurrent)
    exact ⟨hopen, _, insert_self, rfl⟩
  | cancel _ _ _ current hcurrent hopen =>
    obtain rfl := Option.some.inj (horder.symm.trans hcurrent)
    exact ⟨hopen, _, insert_self, rfl⟩
  | observeOutcome _ _ _ _ _ _ current hcurrent hopen =>
    obtain rfl := Option.some.inj (horder.symm.trans hcurrent)
    exact ⟨hopen, _, insert_self, rfl⟩
  | expire _ _ _ current hcurrent hopen =>
    obtain rfl := Option.some.inj (horder.symm.trans hcurrent)
    exact ⟨hopen, _, insert_self, rfl⟩

/-- The history of the order the call is about. -/
lemma Accepted.history (h : Accepted oms call oms' event)
    {submissions : List SubmissionRequest} {outcomes : List EventEnvelope}
    (hkey : History call.key (oms.orders call.key) submissions outcomes) :
    History call.key (oms'.orders call.key) (submissions ++ call.request?.toList)
      (outcomes ++ (if call.decides = true then event else none).toList) := by
  cases h with
  | submit transport request ack hvalid hnew =>
    dsimp only [OmsCall.key] at hkey ⊢
    rw [hnew] at hkey
    obtain ⟨rfl, rfl⟩ := hkey.of_none
    rw [insert_self]
    have hsuccessive : Successive ([] ++ [request]) := List.pairwise_singleton ..
    exact .seen (by simpa using hvalid) hsuccessive ⟨rfl, rfl, rfl, rfl⟩ (.live rfl)
  | replace transport request ack current hvalid hcurrent hopen hslot hsequence =>
    dsimp only [OmsCall.key] at hkey ⊢
    rw [hcurrent] at hkey
    rw [insert_self, show (if OmsCall.decides _ = true then _ else none).toList = [] from rfl,
      List.append_nil]
    exact hkey.replaced hvalid hopen hslot hsequence
  | cancel transport builder opportunityId current hcurrent hopen =>
    dsimp only [OmsCall.key] at hkey ⊢
    rw [hcurrent] at hkey
    rw [insert_self, hkey.outcomes_eq_nil hopen]
    exact (List.append_nil submissions).symm ▸ hkey.ended (.dropped rfl)
  | observeOutcome builder opportunityId slot included failure observedTsNs current hcurrent hopen
      hslot =>
    dsimp only [OmsCall.key] at hkey ⊢
    rw [hcurrent] at hkey
    rw [insert_self, hkey.outcomes_eq_nil hopen]
    subst hslot
    refine (List.append_nil submissions).symm ▸ hkey.ended (.decided ?_ ?_)
    · cases included <;> rfl
    · exact ⟨_, included, failure, observedTsNs, .inl rfl, rfl⟩
  | expire builder opportunityId observedTsNs current hcurrent hopen =>
    dsimp only [OmsCall.key] at hkey ⊢
    rw [hcurrent] at hkey
    rw [insert_self, hkey.outcomes_eq_nil hopen]
    refine (List.append_nil submissions).symm ▸ hkey.ended (.decided rfl ?_)
    exact ⟨_, false, some "expired", observedTsNs, .inr rfl, rfl⟩

lemma Recorded.after (hR : Recorded s) (h : Accepted s.oms call oms' event) :
    Recorded (s.after oms' call event) := by
  intro key
  rw [submissions_after, outcomes_after]
  by_cases hkey : call.key = key
  · subst hkey
    simpa using h.history (hR call.key)
  · rw [if_neg hkey, if_neg (fun hand => hkey hand.1), h.frame (Ne.symm hkey)]
    simpa using hR key

/-! ### Every run -/

lemma Recorded.of_call (hR : Recorded s) (call : OmsCall) : Recorded (s.call call) := by
  rcases call_cases s call with h | ⟨oms', event, haccepted, h⟩
  · rwa [h]
  · rw [h]
    exact hR.after haccepted

lemma recorded_of_run (calls : List OmsCall) : Recorded (omsMachine.run .start calls) := by
  refine Machine.run_induction (M := omsMachine) (fun s call s' hR h => ?_) (fun _ => .unseen) calls
  obtain rfl := Except.ok.inj h
  exact hR.of_call call

/-- Terminal states absorb. -/
lemma orders_of_terminal (hterminal : s.oms.orders key = some order)
    (h : order.state.isTerminal = true) (calls : List OmsCall) :
    (omsMachine.run s calls).oms.orders key = some order := by
  refine Machine.run_induction (M := omsMachine) (I := fun s => s.oms.orders key = some order)
    (fun s call s' hs hcall => ?_) hterminal calls
  obtain rfl := Except.ok.inj hcall
  rcases call_cases s call with hsame | ⟨oms', event, haccepted, hafter⟩
  · rwa [hsame]
  · rw [hafter]
    by_cases hkey : key = call.key
    · subst hkey
      exact absurd h (by simp [(haccepted.of_some hs).1])
    · exact (haccepted.frame hkey).trans hs

lemma validateRequest_ok_iff : validateRequest request = .ok () ↔
    request.simulationConfidenceBps ≤ 10000 ∧
      request.builderPaymentWei ≤ request.profitBeforeBidWei ∧
      request.opportunityCreatedTsNs ≤ request.submitTsNs := by
  unfold validateRequest
  split_ifs <;> simp_all [not_lt, not_le]

lemma History.visible {submissions : List SubmissionRequest} {outcomes : List EventEnvelope}
    (h : History key (some order) submissions outcomes) :
    order.state = .Live ∨ order.state.isTerminal = true := by
  cases h with
  | seen _ _ _ hresolved =>
    cases hresolved with
    | live h => exact .inl h
    | dropped h => exact .inr (by rw [h]; rfl)
    | decided h => exact .inr h

lemma History.submissions {order? : Option ManagedOrder} {submissions : List SubmissionRequest}
    {outcomes : List EventEnvelope} (h : History key order? submissions outcomes) :
    Successive submissions ∧ ∀ request ∈ submissions, validateRequest request = .ok () := by
  cases h with
  | unseen => exact ⟨List.Pairwise.nil, by simp⟩
  | seen hvalid hsuccessive => exact ⟨hsuccessive, hvalid⟩

lemma History.outcomes_length_le {order? : Option ManagedOrder}
    {submissions : List SubmissionRequest} {outcomes : List EventEnvelope}
    (h : History key order? submissions outcomes) : outcomes.length ≤ 1 := by
  cases h with
  | unseen => simp
  | seen _ _ _ hresolved => cases hresolved <;> simp

/-- In every session: an order shows as live or in a terminal state; a terminal order stays as it
is; a call that fails leaves the orders as they were; the accepted submissions of an order have
strictly increasing sequences in one slot and pay at most the profit; and an order has one outcome
at most. -/
theorem oms_orders_safe (calls : List OmsCall) :
    let s := omsMachine.run .start calls
    (∀ key order, s.oms.orders key = some order →
      order.state = .Live ∨ order.state.isTerminal = true) ∧
    (∀ key order, s.oms.orders key = some order → order.state.isTerminal = true →
      ∀ later, (omsMachine.run s later).oms.orders key = some order) ∧
    (∀ call oms' e, s.oms.step call = (oms', .error e) → oms' = s.oms) ∧
    (∀ key, (s.submissions key).Pairwise fun request request' =>
      request.replaceSequence < request'.replaceSequence ∧ request.slot = request'.slot) ∧
    (∀ key, ∀ request ∈ s.submissions key,
      request.builderPaymentWei ≤ request.profitBeforeBidWei) ∧
    ∀ key, (s.outcomes key).length ≤ 1 := by
  intro s
  have hR : Recorded s := recorded_of_run calls
  refine ⟨fun key order horder => ?_, fun key order horder h later => ?_, fun call oms' e h => ?_,
    fun key => (hR key).submissions.1, fun key request hmem => ?_,
    fun key => (hR key).outcomes_length_le⟩
  · exact (horder ▸ hR key).visible
  · exact orders_of_terminal horder h later
  · have hsettled := step_settled s.oms call
    rwa [h] at hsettled
  · exact (validateRequest_ok_iff.mp ((hR key).submissions.2 request hmem)).2.1

end Suwappu.Searcher
