import Suwappu.Searcher.EventIds
import Suwappu.Searcher.Replay
import Suwappu.Searcher.TrainingRows

/-!
# From orders to training rows

The events of a session, replayed and joined into training rows: every order with an outcome gets
its row, with the payment and profit of its last accepted request, unless two orders write the
same text for builder and opportunity and meet in a slot.
-/

namespace Suwappu.Searcher

open Checked

variable {oms oms' : BuilderOms} {call call' : OmsCall} {key key' : OrderKey}
  {order : ManagedOrder} {request : SubmissionRequest} {slot : U64}
  {event : Option EventEnvelope} {s : Session} {events : List EventEnvelope}
  {record : SubmissionRecord} {outcome : OutcomeRecord}

/-! ### What each accepted call emits -/

/-- What the event of a call reports. -/
def OmsCall.mark? : OmsCall → Option Mark
  | .submit _ request | .replace _ request     => some (.submission request.replaceSequence)
  | .cancel ..                                 => none
  | .observeOutcome _ _ _ included _ _         => some (if included then .landed else .reverted)
  | .expire ..                                 => some .expired

/-- The event of a call on an order in the slot. -/
inductive Emits (slot : U64) : OmsCall → Option EventEnvelope → Prop
  | submission {call : OmsCall} {request : SubmissionRequest}
      (hrequest : call.request? = some request) (hkey : request.key = call.key)
      (hmark : call.mark? = some (.submission request.replaceSequence))
      (hslot : request.slot = slot) : Emits slot call (some (submissionEvent request))
  | cancel {transport : BuilderTransport} {builder opportunityId : String} :
      Emits slot (.cancel transport builder opportunityId) none
  | outcome {call : OmsCall} {mark : Mark} {included : Bool} {failure : Option String}
      {observedTsNs : U64} (hdecides : call.decides = true) (hmark : call.mark? = some mark)
      (hhead : mark.head = "oms:outcome:") :
      Emits slot call (some (outcomeEvent call.key slot mark.tail included failure observedTsNs))

/-- Every accepted call has the event of its order. -/
def Emitted (s : Session) : Prop :=
  ∀ entry ∈ s.accepted, ∃ order, s.oms.orders entry.1.key = some order ∧
    Emits order.slot entry.1 entry.2

lemma Accepted.emits (h : Accepted oms call oms' event) :
    ∃ order, oms'.orders call.key = some order ∧ Emits order.slot call event := by
  cases h with
  | submit transport request ack => exact ⟨_, insert_self, .submission rfl rfl rfl rfl⟩
  | replace transport request ack current _ _ _ hslot =>
    exact ⟨_, insert_self, .submission rfl rfl rfl hslot.symm⟩
  | cancel => exact ⟨_, insert_self, .cancel⟩
  | observeOutcome builder opportunityId slot included failure observedTsNs current _ _ hslot =>
    refine ⟨_, insert_self, ?_⟩
    subst hslot
    cases included
    · exact .outcome rfl (rfl : OmsCall.mark? _ = some .reverted) rfl
    · exact .outcome rfl (rfl : OmsCall.mark? _ = some .landed) rfl
  | expire => exact ⟨_, insert_self, .outcome rfl (rfl : OmsCall.mark? _ = some .expired) rfl⟩

/-- An order never leaves its slot. -/
lemma Accepted.slot_eq (h : Accepted oms call oms' event) (horder : oms.orders key = some order) :
    ∃ order', oms'.orders key = some order' ∧ order'.slot = order.slot := by
  by_cases hkey : key = call.key
  · subst hkey
    exact (h.of_some horder).2
  · exact ⟨order, (h.frame hkey).trans horder, rfl⟩

lemma Emitted.after (hE : Emitted s) (h : Accepted s.oms call oms' event) :
    Emitted (s.after oms' call event) := by
  intro entry hentry
  rcases List.mem_append.mp hentry with hentry | hentry
  · obtain ⟨order, horder, hemits⟩ := hE entry hentry
    obtain ⟨order', horder', hslot⟩ := h.slot_eq horder
    exact ⟨order', horder', hslot ▸ hemits⟩
  · rw [List.mem_singleton.mp hentry]
    exact h.emits

lemma emitted_of_run (calls : List OmsCall) : Emitted (omsMachine.run .start calls) := by
  refine Machine.run_induction (M := omsMachine) (fun s call s' hE h => ?_) (by simp [Emitted,
    Session.start]) calls
  obtain rfl := Except.ok.inj h
  rcases call_cases s call with hsame | ⟨oms', event, haccepted, hafter⟩
  · rwa [hsame]
  · rw [hafter]
    exact hE.after haccepted

/-- The order an event is about. -/
def EventEnvelope.orderKey? (event : EventEnvelope) : Option OrderKey :=
  match event.payload with
  | .BuilderSubmission builder opportunityId ..  => some (builder, opportunityId)
  | .BuilderOutcome builder opportunityId _ _ _  => some (builder, opportunityId)
  | _                                            => none

/-- The event of a call carries the id of its mark, and its order. -/
lemma Emits.eventId {mark : Mark} (h : Emits slot call event) (hmark : call.mark? = some mark) :
    ∃ e, event = some e ∧ e.eventId = eventIdOf call.key slot mark ∧
      e.orderKey? = some call.key := by
  cases h with
  | submission hrequest hkey hmark' hslot =>
    obtain rfl := Option.some.inj (hmark'.symm.trans hmark)
    subst hslot
    exact ⟨_, rfl, hkey ▸ submissionEvent_eventId _, congrArg some hkey⟩
  | cancel => simp [OmsCall.mark?] at hmark
  | outcome hdecides hmark' hhead =>
    obtain rfl := Option.some.inj (hmark'.symm.trans hmark)
    refine ⟨_, rfl, ?_, rfl⟩
    simp only [outcomeEvent, omsEvent, eventIdOf, orderText, hhead, String.append_assoc]

lemma Emits.exists_mark {e : EventEnvelope} (h : Emits slot call (some e)) :
    ∃ mark, call.mark? = some mark := by
  cases h with
  | submission _ _ hmark => exact ⟨_, hmark⟩
  | outcome _ hmark => exact ⟨_, hmark⟩

lemma mem_events {e : EventEnvelope} : e ∈ s.events ↔ ∃ call, (call, some e) ∈ s.accepted := by
  simp [Session.events]

lemma mem_submissions : request ∈ s.submissions key ↔
    ∃ entry ∈ s.accepted, entry.1.key = key ∧ entry.1.request? = some request := by
  simp only [Session.submissions, List.mem_filterMap]
  refine exists_congr fun entry => and_congr_right fun _ => ?_
  split <;> simp_all

lemma mem_outcomes {e : EventEnvelope} : e ∈ s.outcomes key ↔
    ∃ entry ∈ s.accepted, (entry.1.key = key ∧ entry.1.decides = true) ∧ entry.2 = some e := by
  simp only [Session.outcomes, List.mem_filterMap]
  refine exists_congr fun entry => and_congr_right fun _ => ?_
  split <;> simp_all

/-! ### What the events say of an order -/

/-- What a submission event reports of its request. -/
def SubmissionRequest.toRecord (request : SubmissionRequest) : SubmissionRecord where
  timestampNs := request.submitTsNs
  slot := request.slot
  builderPaymentWei := request.builderPaymentWei
  profitBeforeBidWei := request.profitBeforeBidWei
  opportunityCreatedTsNs := request.opportunityCreatedTsNs
  slotPhaseMs := request.slotPhaseMs
  simulationConfidenceBps := request.simulationConfidenceBps
  replaceSequence := request.replaceSequence

lemma submissionEvent_submission? :
    (submissionEvent request).submission? = some (request.key, request.toRecord) := rfl

lemma Emits.of_request (h : Emits slot call event) (hrequest : call.request? = some request) :
    event = some (submissionEvent request) ∧ request.key = call.key := by
  cases h with
  | submission hrequest' hkey =>
    obtain rfl := Option.some.inj (hrequest'.symm.trans hrequest)
    exact ⟨rfl, hkey⟩
  | cancel => simp [OmsCall.request?] at hrequest
  | outcome hdecides =>
    cases call <;> simp [OmsCall.request?, OmsCall.decides] at hrequest hdecides

variable (hE : Emitted s) (hevents : ∀ e, e ∈ events ↔ e ∈ s.events)

include hE hevents

lemma submissionIn_iff : SubmissionIn events key record ↔
    ∃ request ∈ s.submissions key, record = request.toRecord := by
  constructor
  · rintro ⟨e, he, hreport⟩
    obtain ⟨call, hentry⟩ := mem_events.mp ((hevents e).mp he)
    obtain ⟨order, -, hemits⟩ := hE _ hentry
    dsimp only at hemits
    cases hemits with
    | @submission _ request hrequest hkey =>
      obtain ⟨hkey', rfl⟩ := Prod.mk.inj (Option.some.inj hreport)
      exact ⟨request, mem_submissions.mpr ⟨_, hentry, hkey ▸ hkey', hrequest⟩, rfl⟩
    | outcome => simp [outcomeEvent, omsEvent, EventEnvelope.submission?] at hreport
  · rintro ⟨request, hrequest, rfl⟩
    obtain ⟨⟨call, event⟩, hentry, rfl, hcall⟩ := mem_submissions.mp hrequest
    obtain ⟨order, -, hemits⟩ := hE _ hentry
    obtain ⟨rfl, hkey⟩ := hemits.of_request hcall
    exact ⟨_, (hevents _).mpr (mem_events.mpr ⟨_, hentry⟩), hkey ▸ submissionEvent_submission?⟩

lemma outcomeIn_iff : OutcomeIn events key outcome ↔
    ∃ e ∈ s.outcomes key, e.outcome? = some (key, outcome) := by
  constructor
  · rintro ⟨e, he, hreport⟩
    obtain ⟨call, hentry⟩ := mem_events.mp ((hevents e).mp he)
    obtain ⟨order, -, hemits⟩ := hE _ hentry
    dsimp only at hemits
    cases hemits with
    | submission => simp [submissionEvent, omsEvent, EventEnvelope.outcome?] at hreport
    | outcome hdecides =>
      obtain ⟨hkey, -⟩ := Prod.mk.inj (Option.some.inj hreport)
      exact ⟨_, mem_outcomes.mpr ⟨_, hentry, ⟨hkey, hdecides⟩, rfl⟩, hreport⟩
  · rintro ⟨e, he, hreport⟩
    obtain ⟨⟨call, event⟩, hentry, -, rfl⟩ := mem_outcomes.mp he
    exact ⟨e, (hevents e).mpr (mem_events.mpr ⟨call, hentry⟩), hreport⟩

/-! ### The rows of the orders -/

omit hE hevents

/-- A request of the order is in its slot, was valid, and comes no later than the last one. -/
lemma History.of_mem {submissions : List SubmissionRequest} {outcomes : List EventEnvelope}
    (h : History key (some order) submissions outcomes) (hr : request ∈ submissions) :
    request.slot = order.slot ∧ request.replaceSequence ≤ order.replaceSequence ∧
      validateRequest request = .ok () := by
  cases h with
  | @seen _ earlier last _ hvalid hsuccessive hlast =>
    refine ⟨?_, ?_, hvalid request hr⟩
    all_goals rcases List.mem_append.mp hr with hr | hr
    · rw [hlast.slot]
      exact ((List.pairwise_append.mp hsuccessive).2.2 request hr last (by simp)).2
    · rw [List.mem_singleton.mp hr, hlast.slot]
    · rw [hlast.replaceSequence]
      exact ((List.pairwise_append.mp hsuccessive).2.2 request hr last (by simp)).1.le
    · rw [List.mem_singleton.mp hr, hlast.replaceSequence]

lemma History.request_eq {order? : Option ManagedOrder} {submissions : List SubmissionRequest}
    {outcomes : List EventEnvelope} (h : History key order? submissions outcomes)
    {request' : SubmissionRequest} (hr : request ∈ submissions) (hr' : request' ∈ submissions)
    (heq : request.replaceSequence = request'.replaceSequence) : request = request' :=
  List.inj_on_of_nodup_map
    (List.pairwise_map.mpr (h.submissions.1.imp fun hlt => hlt.1.ne)) hr hr' heq

lemma History.outcome_eq {order? : Option ManagedOrder} {submissions : List SubmissionRequest}
    {outcomes : List EventEnvelope} (h : History key order? submissions outcomes)
    {e e' : EventEnvelope} (he : e ∈ outcomes) (he' : e' ∈ outcomes) : e = e' := by
  cases h with
  | unseen => simp at he
  | seen _ _ _ hresolved =>
    cases hresolved with
    | live => simp at he
    | dropped => simp at he
    | decided => rw [List.mem_singleton.mp he, List.mem_singleton.mp he']

/-- An order with an outcome was submitted, and its outcome names its slot. -/
lemma History.of_outcome {order? : Option ManagedOrder} {submissions : List SubmissionRequest}
    {outcomes : List EventEnvelope} (h : History key order? submissions outcomes)
    {e : EventEnvelope} (he : e ∈ outcomes) : ∃ order earlier last, order? = some order ∧
      submissions = earlier ++ [last] ∧ Holds order last ∧ IsOutcome key order.slot e := by
  cases h with
  | unseen => simp at he
  | @seen order earlier last _ _ _ hlast hresolved =>
    refine ⟨order, earlier, last, rfl, rfl, hlast, ?_⟩
    cases hresolved with
    | live => simp at he
    | dropped => simp at he
    | decided _ houtcome => rwa [List.mem_singleton.mp he]

lemma IsOutcome.outcome? {e : EventEnvelope} (h : IsOutcome key slot e) :
    ∃ included, e.outcome? = some (key, ⟨slot, included⟩) := by
  obtain ⟨suffix, included, failure, observedTsNs, -, rfl⟩ := h
  exact ⟨included, rfl⟩

variable (hR : Recorded s)

include hE hevents hR

lemma consistent_of_session : Consistent events where
  submissions key record record' hin hin' heq := by
    obtain ⟨request, hr, rfl⟩ := (submissionIn_iff hE hevents).mp hin
    obtain ⟨request', hr', rfl⟩ := (submissionIn_iff hE hevents).mp hin'
    rw [(hR key).request_eq hr hr' heq]
  outcomes key outcome outcome' hin hin' := by
    obtain ⟨e, he, hreport⟩ := (outcomeIn_iff hE hevents).mp hin
    obtain ⟨e', he', hreport'⟩ := (outcomeIn_iff hE hevents).mp hin'
    rw [(hR key).outcome_eq he he', hreport', Option.some.injEq, Prod.mk.injEq] at hreport
    exact hreport.2.symm

/-- The effective submission of an order with an outcome is its last request. -/
lemma effective_of_session (heffective : Effective events key (some record))
    (hin : OutcomeIn events key outcome) : ∃ earlier last,
      s.submissions key = earlier ++ [last] ∧ record = last.toRecord ∧ outcome.slot = last.slot ∧
        validateRequest last = .ok () := by
  obtain ⟨e, he, hreport⟩ := (outcomeIn_iff hE hevents).mp hin
  obtain ⟨order, earlier, last, horder, hsubmissions, hlast, houtcome⟩ := (hR key).of_outcome he
  have hhistory := hR key
  rw [horder] at hhistory
  have hlastmem : last ∈ s.submissions key := by rw [hsubmissions]; simp
  obtain ⟨request, hr, rfl⟩ := (submissionIn_iff hE hevents).mp heffective.1
  have hle := heffective.2 last.toRecord ((submissionIn_iff hE hevents).mpr ⟨last, hlastmem, rfl⟩)
  have hge := (hhistory.of_mem hr).2.1
  rw [hlast.replaceSequence] at hge
  obtain rfl := hhistory.request_eq hr hlastmem (le_antisymm hge hle)
  obtain ⟨included, hreport'⟩ := houtcome.outcome?
  rw [hreport', Option.some.injEq, Prod.mk.injEq] at hreport
  exact ⟨earlier, request, hsubmissions, rfl, hreport.2 ▸ hlast.slot, (hhistory.of_mem hr).2.2⟩

omit hE hevents hR

/-- The row of an order: what its last accepted request pays, and of which profit. -/
def Labels (s : Session) (key : OrderKey) (row : BuilderTrainingRow) : Prop :=
  ∃ earlier last, s.submissions key = earlier ++ [last] ∧ row.builder = key.1 ∧
    row.slot = last.slot ∧ row.builderPaymentWei = last.builderPaymentWei ∧
    row.profitBeforeBidWei = last.profitBeforeBidWei

/-- Replay and training succeed on the events of the session, with one row for each order that has
an outcome. -/
def Survives (codec : Codec) (order : HashOrder) (s : Session) : Prop :=
  ∃ report rows keys, replay codec order s.events = .ok report ∧
    trainingRowsFromEvents report.events = .ok rows ∧ keys.Nodup ∧
    (∀ key, key ∈ keys ↔ s.outcomes key ≠ []) ∧ List.Forall₂ (Labels s) keys rows

include hE hevents hR in
lemma trainingRows_of_session : ∃ rows keys, trainingRowsFromEvents events = .ok rows ∧
    keys.Nodup ∧ (∀ key, key ∈ keys ↔ s.outcomes key ≠ []) ∧
    List.Forall₂ (Labels s) keys rows := by
  obtain ⟨rows, keys, hrows, hnodup, hmem, hlabels⟩ := trainingRowsFromEvents_ok
    (consistent_of_session hE hevents hR) (fun key record outcome heffective hin => by
      obtain ⟨earlier, last, -, rfl, hslot, hvalid⟩ :=
        effective_of_session hE hevents hR heffective hin
      exact ⟨hslot, (validateRequest_ok_iff.mp hvalid).2.2⟩)
  refine ⟨rows, keys, hrows, hnodup, fun key => ?_, hlabels.imp ?_⟩
  · rw [hmem key]
    constructor
    · rintro ⟨-, outcome, hin⟩
      obtain ⟨e, he, -⟩ := (outcomeIn_iff hE hevents).mp hin
      exact List.ne_nil_of_mem he
    · intro hne
      obtain ⟨e, he⟩ := List.exists_mem_of_ne_nil _ hne
      obtain ⟨order, earlier, last, -, hsubmissions, -, houtcome⟩ := (hR key).of_outcome he
      obtain ⟨included, hreport⟩ := houtcome.outcome?
      refine ⟨⟨last.toRecord, (submissionIn_iff hE hevents).mpr ⟨last, ?_, rfl⟩⟩, _,
        (outcomeIn_iff hE hevents).mpr ⟨e, he, hreport⟩⟩
      rw [hsubmissions]
      simp
  · rintro key row ⟨d, record, outcome, heffective, hin, rfl⟩
    obtain ⟨earlier, last, hsubmissions, rfl, -⟩ :=
      effective_of_session hE hevents hR heffective hin
    exact ⟨earlier, last, hsubmissions, rfl, rfl, rfl, rfl⟩

/-! ### Clashing ids -/

/-- Two calls for different orders that write the same text for builder and opportunity, in the
same slot, and report the same: a replacement of one number, or one kind of outcome. -/
structure Clash (s : Session) (call call' : OmsCall) : Prop where
  key : call.key ≠ call'.key
  text : orderText call.key = orderText call'.key
  slot : (s.oms.orders call.key).map (·.slot) = (s.oms.orders call'.key).map (·.slot)
  mark : ∃ mark, call.mark? = some mark ∧ call'.mark? = some mark

/-- One order reports a thing once. -/
lemma event_eq_of_mark (hE : Emitted s) (hR : Recorded s) {e e' : EventEnvelope}
    (he : (call, some e) ∈ s.accepted) (he' : (call', some e') ∈ s.accepted)
    (hkey : call.key = call'.key) (hmark : call.mark? = call'.mark?) : e = e' := by
  obtain ⟨order, -, hemits⟩ := hE _ he
  obtain ⟨order', -, hemits'⟩ := hE _ he'
  dsimp only at hemits hemits'
  cases hemits with
  | submission hrequest hkey₁ hmark₁ =>
    cases hemits' with
    | submission hrequest' hkey₁' hmark₁' =>
      rw [hmark₁, hmark₁', Option.some.injEq, Mark.submission.injEq] at hmark
      rw [(hR call.key).request_eq (mem_submissions.mpr ⟨_, he, rfl, hrequest⟩)
        (mem_submissions.mpr ⟨_, he', hkey.symm, hrequest'⟩) hmark]
    | outcome _ hmark₁' hhead =>
      rw [hmark₁, hmark₁', Option.some.injEq] at hmark
      subst hmark
      simp [Mark.head] at hhead
  | outcome hdecides hmark₁ hhead =>
    cases hemits' with
    | submission _ _ hmark₁' =>
      rw [hmark₁, hmark₁', Option.some.injEq] at hmark
      subst hmark
      simp [Mark.head] at hhead
    | outcome hdecides' =>
      exact (hR call.key).outcome_eq (mem_outcomes.mpr ⟨_, he, ⟨rfl, hdecides⟩, rfl⟩)
        (mem_outcomes.mpr ⟨_, he', ⟨hkey.symm, hdecides'⟩, rfl⟩)

lemma conflicting_iff_clash (hE : Emitted s) (hR : Recorded s) : Conflicting s.events ↔
    ∃ entry ∈ s.accepted, ∃ entry' ∈ s.accepted, Clash s entry.1 entry'.1 := by
  constructor
  · rintro ⟨e, he, e', he', hid, hne⟩
    obtain ⟨call, hentry⟩ := mem_events.mp he
    obtain ⟨call', hentry'⟩ := mem_events.mp he'
    obtain ⟨order, horder, hemits⟩ := hE _ hentry
    obtain ⟨order', horder', hemits'⟩ := hE _ hentry'
    obtain ⟨mark, hmark⟩ := hemits.exists_mark
    obtain ⟨mark', hmark'⟩ := hemits'.exists_mark
    obtain ⟨_, ⟨rfl⟩, heventId, -⟩ := hemits.eventId hmark
    obtain ⟨_, ⟨rfl⟩, heventId', -⟩ := hemits'.eventId hmark'
    obtain ⟨htext, hslot, rfl⟩ := eventIdOf_inj (heventId.symm.trans (hid.trans heventId'))
    refine ⟨_, hentry, _, hentry', fun hkey => ?_, htext, ?_, mark, hmark, hmark'⟩
    · exact hne (event_eq_of_mark hE hR hentry hentry' hkey (hmark.trans hmark'.symm))
    · rw [horder, horder', Option.map_some, Option.map_some, hslot]
  · rintro ⟨entry, hentry, entry', hentry', hkey, htext, hslot, mark, hmark, hmark'⟩
    obtain ⟨order, horder, hemits⟩ := hE _ hentry
    obtain ⟨order', horder', hemits'⟩ := hE _ hentry'
    obtain ⟨e, he, heventId, horderKey⟩ := hemits.eventId hmark
    obtain ⟨e', he', heventId', horderKey'⟩ := hemits'.eventId hmark'
    rw [horder, horder', Option.map_some, Option.map_some, Option.some.injEq] at hslot
    refine ⟨e, mem_events.mpr ⟨entry.1, he ▸ hentry⟩, e', mem_events.mpr ⟨entry'.1, he' ▸ hentry'⟩,
      ?_, ?_⟩
    · rw [heventId, heventId', eventIdOf, eventIdOf, htext, hslot]
    · rintro rfl
      exact hkey (Option.some.inj (horderKey.symm.trans horderKey'))

/-! ### Every run -/

lemma hasherInput_ok {codec : Codec} (hvec : ∀ event, ∃ bytes, codec.toVec event = .ok bytes)
    (ordered : List EventEnvelope) : ∃ bytes, hasherInput codec ordered = .ok bytes := by
  induction ordered with
  | nil => exact ⟨[], rfl⟩
  | cons event ordered ih =>
    obtain ⟨bytes, hbytes⟩ := hvec event
    obtain ⟨rest, hrest⟩ := ih
    exact ⟨_, by rw [hasherInput, hbytes, hrest]; rfl⟩

/-- The events of a session survive replay and training just if no two accepted calls clash. Every
event serialises. -/
theorem session_survives_iff (codec : Codec)
    (hvec : ∀ event, ∃ bytes, codec.toVec event = .ok bytes) (order : HashOrder)
    (calls : List OmsCall) :
    let s := omsMachine.run .start calls
    Survives codec order s ↔
      ∀ entry ∈ s.accepted, ∀ entry' ∈ s.accepted, ¬ Clash s entry.1 entry'.1 := by
  intro s
  have hE : Emitted s := emitted_of_run calls
  have hR : Recorded s := recorded_of_run calls
  have hclash : (∀ entry ∈ s.accepted, ∀ entry' ∈ s.accepted, ¬ Clash s entry.1 entry'.1) ↔
      ¬ Conflicting s.events := by
    rw [conflicting_iff_clash hE hR]
    push Not
    rfl
  rw [hclash]
  constructor
  · rintro ⟨report, rows, keys, hreplay, -⟩ hconflict
    obtain ⟨e, he⟩ := replay_of_conflicting codec order hconflict
    rw [he] at hreplay
    simp at hreplay
  · intro hnot
    obtain ⟨unique, n, -, hmem, hreplay⟩ := replay_of_not_conflicting codec order hnot
    obtain ⟨bytes, hbytes⟩ := hasherInput_ok hvec
      (Canonical.sorted EventEnvelope.replayCmp unique)
    have hsorted : ∀ e, e ∈ Canonical.sorted EventEnvelope.replayCmp unique ↔ e ∈ s.events :=
      fun e => Canonical.mem_sorted.trans (hmem e)
    obtain ⟨rows, keys, hrows⟩ := trainingRows_of_session hE hsorted hR
    cases hreport : reportOf codec n (Canonical.sorted EventEnvelope.replayCmp unique) with
    | error e =>
      rw [reportOf_error_iff, hbytes] at hreport
      simp at hreport
    | ok report =>
      obtain ⟨-, -, hevents, -⟩ := reportOf_ok hreport
      exact ⟨report, rows, keys, hreplay.trans hreport, hevents ▸ hrows⟩

/-- The JSON of the payload of an OMS event, from its type on, for texts without escapes. -/
def omsPayloadJson : MarketEvent → String
  | .BuilderSubmission builder opportunityId slot builderPaymentWei profitBeforeBidWei
      opportunityCreatedTsNs slotPhaseMs simulationConfidenceBps replaceSequence =>
    "\"builder_submission\",\"builder\":\"" ++ builder ++ "\",\"opportunity_id\":\"" ++
      opportunityId ++ "\",\"slot\":" ++ Nat.repr slot ++ ",\"builder_payment_wei\":" ++
      Nat.repr builderPaymentWei ++ ",\"profit_before_bid_wei\":" ++
      Nat.repr profitBeforeBidWei ++ ",\"opportunity_created_ts_ns\":" ++
      Nat.repr opportunityCreatedTsNs ++ ",\"slot_phase_ms\":" ++ Nat.repr slotPhaseMs ++
      ",\"simulation_confidence_bps\":" ++ Nat.repr simulationConfidenceBps ++
      ",\"replace_sequence\":" ++ (replaceSequence.map fun n => Nat.repr n.val).getD "null"
  | .BuilderOutcome builder opportunityId slot included failure =>
    "\"builder_outcome\",\"builder\":\"" ++ builder ++ "\",\"opportunity_id\":\"" ++
      opportunityId ++ "\",\"slot\":" ++ Nat.repr slot ++ ",\"included\":" ++
      (if included then "true" else "false") ++ ",\"failure\":" ++
      (failure.map fun text => "\"" ++ text ++ "\"").getD "null"
  | _ => "null"

/-- The JSON of OMS events, and the digest of the three events below. -/
def omsCodec : Codec where
  toVec event := .ok (String.toUTF8 ("\x7b\"schema_version\":1,\"event_id\":\"" ++
    event.eventId ++ "\",\"source\":\"suwappu:oms\",\"exchange_ts_ns\":" ++
    Nat.repr event.exchangeTsNs ++ ",\"receive_ts_ns\":" ++ Nat.repr event.receiveTsNs ++
    ",\"sequence\":null,\"clock_uncertainty_ns\":0,\"chain\":null,\"payload\":\x7b\"type\":" ++
    omsPayloadJson event.payload ++ "\x7d\x7d")).toList
  digest _ := "5df6be190359d4992659cc8f67cf85cc1345b53b7c943d367fe66592092132a4"

/-- A transport that accepts everything. -/
def acking : BuilderTransport where
  submit request := .ok ⟨"ack-" ++ Nat.repr request.replaceSequence⟩
  cancel _ := .ok ()

def bid (builder opportunityId : String) (sequence : U64) (payment : U128) :
    SubmissionRequest where
  builder := builder
  opportunityId := opportunityId
  slot := 123
  builderPaymentWei := payment
  profitBeforeBidWei := 1000
  opportunityCreatedTsNs := 1000000
  submitTsNs := 2000000 + sequence
  slotPhaseMs := 2000
  simulationConfidenceBps := 9900
  replaceSequence := sequence
  signedTransactions := ["0xabc"]

/-- Submit, replace, land. -/
def landing : List OmsCall :=
  [.submit acking (bid "titan" "opp-1" 1 100), .replace acking (bid "titan" "opp-1" 2 150),
    .observeOutcome "titan" "opp-1" 123 true none 3000000]

theorem landing_survives :
    Survives omsCodec ⟨id, fun _ => .refl _⟩ (omsMachine.run .start landing) := by
  have hkeys : ∀ entry ∈ (omsMachine.run .start landing).accepted,
      entry.1.key = ("titan", "opp-1") := by decide +kernel
  exact (session_survives_iff omsCodec (fun _ => ⟨_, rfl⟩) ⟨id, fun _ => .refl _⟩ landing).mpr
    fun entry hentry entry' hentry' hclash =>
      hclash.key ((hkeys entry hentry).trans (hkeys entry' hentry').symm)

/-- Two orders whose builder and opportunity read alike. -/
def alike : List OmsCall :=
  [.submit acking (bid "titan" "relay:1" 1 100), .submit acking (bid "titan:relay" "1" 1 100)]

theorem alike_orders_conflict : ¬ ∀ (codec : Codec) (order : HashOrder) (calls : List OmsCall),
    (∀ event, ∃ bytes, codec.toVec event = .ok bytes) →
      Survives codec order (omsMachine.run .start calls) := by
  intro h
  obtain ⟨report, rows, keys, hreplay, -⟩ :=
    h omsCodec ⟨id, fun _ => .refl _⟩ alike fun _ => ⟨_, rfl⟩
  have hconflict : Conflicting (omsMachine.run .start alike).events := by
    unfold Conflicting
    decide +kernel
  obtain ⟨e, he⟩ := replay_of_conflicting omsCodec ⟨id, fun _ => .refl _⟩ hconflict
  rw [he] at hreplay
  simp at hreplay

end Suwappu.Searcher
