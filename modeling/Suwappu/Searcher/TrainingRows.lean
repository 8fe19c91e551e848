import Suwappu.Searcher.BuilderDataset

/-!
# The rows of a dataset

From events that do not contradict each other the first loop collects, for every order, the
submission with the highest sequence and the outcome; the second loop makes one row of each order
that has both.
-/

namespace Suwappu.Searcher

open Checked Std

variable {d : Dataset} {event : EventEnvelope} {events done : List EventEnvelope} {key : OrderKey}
  {record : SubmissionRecord} {outcome : OutcomeRecord}

/-! ### What the events report -/

/-- The submission an event reports. -/
def EventEnvelope.submission? (event : EventEnvelope) : Option (OrderKey × SubmissionRecord) :=
  match event.payload with
  | .BuilderSubmission builder opportunityId slot builderPaymentWei profitBeforeBidWei
      opportunityCreatedTsNs slotPhaseMs simulationConfidenceBps replaceSequence =>
    some ((builder, opportunityId), {
      timestampNs := event.exchangeTsNs
      slot := slot
      builderPaymentWei := builderPaymentWei
      profitBeforeBidWei := profitBeforeBidWei
      opportunityCreatedTsNs := opportunityCreatedTsNs
      slotPhaseMs := slotPhaseMs
      simulationConfidenceBps := simulationConfidenceBps
      replaceSequence := replaceSequence.getD 0 })
  | _ => none

/-- The outcome an event reports. -/
def EventEnvelope.outcome? (event : EventEnvelope) : Option (OrderKey × OutcomeRecord) :=
  match event.payload with
  | .BuilderOutcome builder opportunityId slot included _ =>
    some ((builder, opportunityId), ⟨slot, included⟩)
  | _ => none

lemma observe_of_submission (h : event.submission? = some (key, record)) :
    d.observe event = d.observeSubmission key record ∧ event.outcome? = none := by
  unfold EventEnvelope.submission? at h
  unfold Dataset.observe EventEnvelope.outcome?
  split at h <;> simp_all

lemma observe_of_outcome (h : event.outcome? = some (key, outcome)) :
    d.observe event = d.observeOutcome key outcome ∧ event.submission? = none := by
  unfold EventEnvelope.outcome? at h
  unfold Dataset.observe EventEnvelope.submission?
  split at h <;> simp_all

lemma observe_of_none (hs : event.submission? = none) (ho : event.outcome? = none) :
    ∃ d', d.observe event = .ok d' ∧ d'.submissions = d.submissions ∧
      d'.outcomes = d.outcomes := by
  cases hp : event.payload with
  | BuilderTrace builder opportunityId bidWei simulated included failure =>
    refine ⟨d.observeTrace opportunityId bidWei, by simp only [Dataset.observe, hp], ?_⟩
    unfold Dataset.observeTrace
    split <;> exact ⟨rfl, rfl⟩
  | BuilderSubmission => simp [EventEnvelope.submission?, hp] at hs
  | BuilderOutcome => simp [EventEnvelope.outcome?, hp] at ho
  | _ => exact ⟨d, by simp only [Dataset.observe, hp], rfl, rfl⟩

def SubmissionIn (events : List EventEnvelope) (key : OrderKey) (record : SubmissionRecord) :
    Prop :=
  ∃ event ∈ events, event.submission? = some (key, record)

def OutcomeIn (events : List EventEnvelope) (key : OrderKey) (outcome : OutcomeRecord) : Prop :=
  ∃ event ∈ events, event.outcome? = some (key, outcome)

lemma submissionIn_concat : SubmissionIn (events ++ [event]) key record ↔
    SubmissionIn events key record ∨ event.submission? = some (key, record) := by
  simp [SubmissionIn, or_and_right, exists_or]

lemma outcomeIn_concat : OutcomeIn (events ++ [event]) key outcome ↔
    OutcomeIn events key outcome ∨ event.outcome? = some (key, outcome) := by
  simp [OutcomeIn, or_and_right, exists_or]

/-- The submission that stands for an order: one with the highest sequence. -/
def Effective (events : List EventEnvelope) (key : OrderKey) : Option SubmissionRecord → Prop
  | none        => ∀ record, ¬ SubmissionIn events key record
  | some record => SubmissionIn events key record ∧ ∀ record', SubmissionIn events key record' →
      record'.replaceSequence ≤ record.replaceSequence

/-- The outcome an order has. -/
def Labeled (events : List EventEnvelope) (key : OrderKey) : Option OutcomeRecord → Prop
  | none         => ∀ outcome, ¬ OutcomeIn events key outcome
  | some outcome => OutcomeIn events key outcome

lemma Effective.exists_iff {record? : Option SubmissionRecord} (he : Effective events key record?) :
    (∃ record, record? = some record) ↔ ∃ record, SubmissionIn events key record := by
  cases record? with
  | none => exact iff_of_false (by simp) fun ⟨record, hin⟩ => he record hin
  | some record => exact iff_of_true ⟨record, rfl⟩ ⟨record, he.1⟩

lemma Labeled.exists_iff {outcome? : Option OutcomeRecord} (hl : Labeled events key outcome?) :
    (∃ outcome, outcome? = some outcome) ↔ ∃ outcome, OutcomeIn events key outcome := by
  cases outcome? with
  | none => exact iff_of_false (by simp) fun ⟨outcome, hin⟩ => hl outcome hin
  | some outcome => exact iff_of_true ⟨outcome, rfl⟩ ⟨outcome, hl⟩

/-- No two reports of one thing differ. -/
structure Consistent (events : List EventEnvelope) : Prop where
  submissions : ∀ key record record', SubmissionIn events key record →
    SubmissionIn events key record' → record.replaceSequence = record'.replaceSequence →
      record = record'
  outcomes : ∀ key outcome outcome', OutcomeIn events key outcome →
    OutcomeIn events key outcome' → outcome = outcome'

/-- The event repeats what `done` says of its order: the submission with the highest sequence, if it
has this sequence, and the outcome. -/
structure Agrees (done : List EventEnvelope) (event : EventEnvelope) : Prop where
  submission : ∀ key record existing, event.submission? = some (key, record) →
    Effective done key (some existing) → record.replaceSequence = existing.replaceSequence →
      record = existing
  outcome : ∀ key outcome existing, event.outcome? = some (key, outcome) →
    OutcomeIn done key existing → outcome = existing

lemma Consistent.agrees (hc : Consistent (done ++ [event])) : Agrees done event where
  submission key record existing h he heq := hc.submissions key record existing
    (submissionIn_concat.mpr (.inr h)) (submissionIn_concat.mpr (.inl he.1)) heq
  outcome key outcome existing h ho := hc.outcomes key outcome existing
    (outcomeIn_concat.mpr (.inr h)) (outcomeIn_concat.mpr (.inl ho))

/-- What the first loop has collected after the events `done`. -/
structure Collected (d : Dataset) (done : List EventEnvelope) : Prop where
  submissions : ∀ key, Effective done key d.submissions[key]?
  outcomes : ∀ key, Labeled done key d.outcomes[key]?

/-! ### The first loop -/

lemma Effective.concat_of_ne {record? : Option SubmissionRecord} {key' : OrderKey}
    (he : Effective done key' record?) (h : ∀ record, event.submission? ≠ some (key', record)) :
    Effective (done ++ [event]) key' record? := by
  cases record? with
  | none =>
    intro record hin
    exact (submissionIn_concat.mp hin).elim (he record) (h record)
  | some record =>
    refine ⟨submissionIn_concat.mpr (.inl he.1), fun record' hin => ?_⟩
    exact he.2 record' ((submissionIn_concat.mp hin).resolve_right (h record'))

/-- A higher sequence, or the first one, takes its order over. -/
lemma Effective.concat_of_gt {record? : Option SubmissionRecord} (he : Effective done key record?)
    (h : event.submission? = some (key, record))
    (hgt : ∀ existing ∈ record?, existing.replaceSequence ≤ record.replaceSequence) :
    Effective (done ++ [event]) key (some record) := by
  refine ⟨submissionIn_concat.mpr (.inr h), fun record' hin => ?_⟩
  rcases submissionIn_concat.mp hin with hin | hin
  · cases record? with
    | none => exact absurd hin (he record')
    | some existing => exact (he.2 record' hin).trans (hgt existing rfl)
  · rw [h, Option.some.injEq, Prod.mk.injEq] at hin
    rw [hin.2]

lemma Effective.concat_of_le {existing : SubmissionRecord} (he : Effective done key (some existing))
    (h : event.submission? = some (key, record))
    (hle : record.replaceSequence ≤ existing.replaceSequence) :
    Effective (done ++ [event]) key (some existing) := by
  refine ⟨submissionIn_concat.mpr (.inl he.1), fun record' hin => ?_⟩
  rcases submissionIn_concat.mp hin with hin | hin
  · exact he.2 record' hin
  · rw [h, Option.some.injEq, Prod.mk.injEq] at hin
    rwa [← hin.2]

lemma getElem?_insert {α : Type} (m : TreeMap OrderKey α keyCmp) (a : α) (key' : OrderKey) :
    (m.insert key a)[key']? = if key = key' then some a else m[key']? := by
  rw [TreeMap.getElem?_insert]
  simp only [LawfulEqCmp.compare_eq_iff_eq]

/-- An event reports on one order. -/
lemma ne_report {α : Type} {reported : Option (OrderKey × α)} {a : α}
    (h : reported = some (key, a)) {key' : OrderKey} (hne : key' ≠ key) (a' : α) :
    reported ≠ some (key', a') := by
  intro h'
  rw [h, Option.some.injEq, Prod.mk.injEq] at h'
  exact hne h'.1.symm

lemma Collected.observeSubmission (hd : Collected d done) (ha : Agrees done event)
    (h : event.submission? = some (key, record)) :
    ∃ d', d.observeSubmission key record = .ok d' ∧ d'.outcomes = d.outcomes ∧
      ∀ key', Effective (done ++ [event]) key' d'.submissions[key']? := by
  have hkey := hd.submissions key
  -- the record of the order either is replaced by the new one, or stays
  have hinsert : (∀ existing ∈ d.submissions[key]?,
      existing.replaceSequence ≤ record.replaceSequence) → ∀ key',
      Effective (done ++ [event]) key' (d.submissions.insert key record)[key']? := by
    intro hgt key'
    rw [getElem?_insert]
    split
    · rename_i heq
      subst heq
      exact hkey.concat_of_gt h hgt
    · rename_i hne
      exact (hd.submissions key').concat_of_ne (ne_report h (Ne.symm hne))
  unfold Dataset.observeSubmission
  cases hexisting : d.submissions[key]? with
  | none => exact ⟨_, rfl, rfl, hinsert (by simp [hexisting])⟩
  | some existing =>
    rw [hexisting] at hkey
    have hkeep : record.replaceSequence ≤ existing.replaceSequence →
        ∀ key', Effective (done ++ [event]) key' d.submissions[key']? := by
      intro hle key'
      by_cases hne : key' = key
      · subst hne
        rw [hexisting]
        exact hkey.concat_of_le h hle
      · exact (hd.submissions key').concat_of_ne (ne_report h hne)
    dsimp only
    split
    · rename_i hgt
      exact ⟨_, rfl, rfl, hinsert (by simpa [hexisting] using hgt.le)⟩
    split
    · rename_i heq
      obtain rfl := ha.submission key record existing h hkey heq
      exact ⟨d, by simp, rfl, hkeep le_rfl⟩
    · rename_i hgt _
      exact ⟨d, rfl, rfl, hkeep (le_of_not_gt hgt)⟩

lemma Labeled.concat_of_ne {outcome? : Option OutcomeRecord} {key' : OrderKey}
    (hl : Labeled done key' outcome?) (h : ∀ outcome, event.outcome? ≠ some (key', outcome)) :
    Labeled (done ++ [event]) key' outcome? := by
  cases outcome? with
  | none =>
    intro outcome hin
    exact (outcomeIn_concat.mp hin).elim (hl outcome) (h outcome)
  | some outcome => exact outcomeIn_concat.mpr (.inl hl)

lemma Collected.observeOutcome (hd : Collected d done) (ha : Agrees done event)
    (h : event.outcome? = some (key, outcome)) :
    ∃ d', d.observeOutcome key outcome = .ok d' ∧ d'.submissions = d.submissions ∧
      ∀ key', Labeled (done ++ [event]) key' d'.outcomes[key']? := by
  have hkey := hd.outcomes key
  unfold Dataset.observeOutcome
  cases hexisting : d.outcomes[key]? with
  | none =>
    refine ⟨_, rfl, rfl, fun key' => ?_⟩
    dsimp only
    rw [getElem?_insert]
    split
    · rename_i heq
      subst heq
      exact outcomeIn_concat.mpr (.inr h)
    · rename_i hne
      exact (hd.outcomes key').concat_of_ne (ne_report h (Ne.symm hne))
  | some existing =>
    rw [hexisting] at hkey
    obtain rfl := ha.outcome key outcome existing h hkey
    refine ⟨d, by simp, rfl, fun key' => ?_⟩
    by_cases hne : key' = key
    · subst hne
      rw [hexisting]
      exact outcomeIn_concat.mpr (.inl hkey)
    · exact (hd.outcomes key').concat_of_ne (ne_report h hne)

lemma Collected.observe (hd : Collected d done) (ha : Agrees done event) :
    ∃ d', d.observe event = .ok d' ∧ Collected d' (done ++ [event]) := by
  cases hs : event.submission? with
  | some reported =>
    obtain ⟨key, record⟩ := reported
    obtain ⟨hobserve, hnone⟩ := observe_of_submission (d := d) hs
    obtain ⟨d', hd', houtcomes, hsubmissions⟩ := hd.observeSubmission ha hs
    refine ⟨d', hobserve.trans hd', hsubmissions, fun key' => ?_⟩
    rw [houtcomes]
    exact (hd.outcomes key').concat_of_ne (by simp [hnone])
  | none =>
    cases ho : event.outcome? with
    | some reported =>
      obtain ⟨key, outcome⟩ := reported
      obtain ⟨d', hd', hsubmissions, houtcomes⟩ := hd.observeOutcome ha ho
      refine ⟨d', (observe_of_outcome ho).1.trans hd', fun key' => ?_, houtcomes⟩
      rw [hsubmissions]
      exact (hd.submissions key').concat_of_ne (by simp [hs])
    | none =>
      obtain ⟨d', hd', hsubmissions, houtcomes⟩ := observe_of_none (d := d) hs ho
      refine ⟨d', hd', fun key' => ?_, fun key' => ?_⟩
      · rw [hsubmissions]
        exact (hd.submissions key').concat_of_ne (by simp [hs])
      · rw [houtcomes]
        exact (hd.outcomes key').concat_of_ne (by simp [ho])

lemma Consistent.of_subset (hc : Consistent events) (h : done ⊆ events) : Consistent done where
  submissions key record record' hin hin' := hc.submissions key record record'
    (hin.imp fun _ hr => ⟨h hr.1, hr.2⟩) (hin'.imp fun _ hr => ⟨h hr.1, hr.2⟩)
  outcomes key outcome outcome' hin hin' := hc.outcomes key outcome outcome'
    (hin.imp fun _ hr => ⟨h hr.1, hr.2⟩) (hin'.imp fun _ hr => ⟨h hr.1, hr.2⟩)

/-- Events that agree are collected without an error. -/
lemma Collected.collect (hd : Collected d done) (hc : Consistent (done ++ events)) :
    ∃ d', d.collect events = .ok d' ∧ Collected d' (done ++ events) := by
  induction events generalizing d done with
  | nil => exact ⟨d, rfl, by simpa using hd⟩
  | cons event events ih =>
    have hevent : Consistent (done ++ [event]) := hc.of_subset (by simp)
    obtain ⟨d₁, hobserve, hd₁⟩ := hd.observe hevent.agrees
    obtain ⟨d', hcollect, hd'⟩ := ih hd₁ (by simpa using hc)
    exact ⟨d', by rw [Dataset.collect, hobserve]; exact hcollect, by simpa using hd'⟩

lemma collected_empty : Collected .empty [] where
  submissions key := by simp [Dataset.empty, Effective, SubmissionIn]
  outcomes key := by simp [Dataset.empty, Labeled, OutcomeIn]

/-! ### The rows -/

/-- The row of an order with its outcome. -/
def Dataset.row (d : Dataset) (key : OrderKey) (submission : SubmissionRecord)
    (outcome : OutcomeRecord) : BuilderTrainingRow where
  timestampNs := submission.timestampNs
  builder := key.1
  slot := submission.slot
  builderPaymentWei := submission.builderPaymentWei
  profitBeforeBidWei := submission.profitBeforeBidWei
  opportunityAgeMs := (submission.timestampNs - submission.opportunityCreatedTsNs) / 1000000
  slotPhaseMs := submission.slotPhaseMs
  simulationConfidenceBps := submission.simulationConfidenceBps
  relayTopBidWei := d.relayTopBySlot[submission.slot]?
  included := outcome.included

/-- An outcome in the slot of its submission, made after the opportunity. -/
def Fitting (record : SubmissionRecord) (outcome : OutcomeRecord) : Prop :=
  outcome.slot = record.slot ∧ record.opportunityCreatedTsNs ≤ record.timestampNs

/-- The orders with an outcome get one row each, in the order of their keys. -/
lemma trainingRows_ok {submissions : List (OrderKey × SubmissionRecord)}
    (h : ∀ entry ∈ submissions, ∀ outcome, d.outcomes[entry.1]? = some outcome →
      Fitting entry.2 outcome) :
    d.trainingRows submissions = .ok (submissions.filterMap fun entry =>
      d.outcomes[entry.1]?.map (d.row entry.1 entry.2)) := by
  induction submissions with
  | nil => rfl
  | cons entry submissions ih =>
    obtain ⟨key, submission⟩ := entry
    have hrow : d.trainingRow key submission
        = .ok (d.outcomes[key]?.map (d.row key submission)) := by
      unfold Dataset.trainingRow
      cases houtcome : d.outcomes[key]? with
      | none => rfl
      | some outcome =>
        obtain ⟨hslot, hage⟩ := h (key, submission) List.mem_cons_self outcome houtcome
        dsimp only
        rw [if_neg (by simp [hslot]), if_neg hage.not_gt]
        rfl
    rw [Dataset.trainingRows, hrow, ih fun entry hentry => h entry (List.mem_cons_of_mem _ hentry)]
    simp only [ok_bind, pure, Except.pure, List.filterMap_cons]
    cases d.outcomes[key]? <;> rfl

/-- The labeled orders of a dataset, in the order of their keys. -/
def Dataset.labeledKeys (d : Dataset) : List OrderKey :=
  (d.submissions.toList.filter fun entry => d.outcomes[entry.1]?.isSome).map Prod.fst

lemma nodup_labeledKeys (d : Dataset) : d.labeledKeys.Nodup := by
  refine List.pairwise_map.mpr ((TreeMap.distinct_keys_toList.sublist
    List.filter_sublist).imp fun h heq => h ?_)
  rw [heq]
  exact ReflCmp.compare_self

lemma mem_labeledKeys : key ∈ d.labeledKeys ↔
    (∃ record, d.submissions[key]? = some record) ∧ ∃ outcome, d.outcomes[key]? = some outcome := by
  simp only [Dataset.labeledKeys, List.mem_map, List.mem_filter, Option.isSome_iff_exists]
  constructor
  · rintro ⟨⟨key, record⟩, ⟨hentry, houtcome⟩, rfl⟩
    exact ⟨⟨record, TreeMap.mem_toList_iff_getElem?_eq_some.mp hentry⟩, houtcome⟩
  · rintro ⟨⟨record, hrecord⟩, houtcome⟩
    exact ⟨(key, record), ⟨TreeMap.mem_toList_iff_getElem?_eq_some.mpr hrecord, houtcome⟩, rfl⟩

/-- A row of the order, made of its effective submission and its outcome. -/
def RowOf (events : List EventEnvelope) (key : OrderKey) (row : BuilderTrainingRow) : Prop :=
  ∃ d record outcome, Effective events key (some record) ∧ OutcomeIn events key outcome ∧
    row = Dataset.row d key record outcome

lemma forall₂_rowOf (hd : Collected d events) {submissions : List (OrderKey × SubmissionRecord)}
    (h : ∀ entry ∈ submissions, d.submissions[entry.1]? = some entry.2) :
    List.Forall₂ (RowOf events)
      ((submissions.filter fun entry => d.outcomes[entry.1]?.isSome).map Prod.fst)
      (submissions.filterMap fun entry => d.outcomes[entry.1]?.map (d.row entry.1 entry.2)) := by
  induction submissions with
  | nil => exact .nil
  | cons entry submissions ih =>
    have htail := ih fun entry hentry => h entry (List.mem_cons_of_mem _ hentry)
    have hrecord := hd.submissions entry.1
    rw [h entry List.mem_cons_self] at hrecord
    have hlabel := hd.outcomes entry.1
    cases houtcome : d.outcomes[entry.1]? with
    | none =>
      rw [List.filter_cons_of_neg (by rw [houtcome]; simp),
        List.filterMap_cons_none (by rw [houtcome]; rfl)]
      exact htail
    | some outcome =>
      rw [houtcome] at hlabel
      rw [List.filter_cons_of_pos (by rw [houtcome]; rfl), List.map_cons,
        List.filterMap_cons_some (by rw [houtcome]; rfl)]
      exact .cons ⟨d, entry.2, outcome, hrecord, hlabel, rfl⟩ htail

/-- Consistent events whose outcomes fit their submissions make one row for each order that has
both. -/
theorem trainingRowsFromEvents_ok (hc : Consistent events)
    (hfit : ∀ key record outcome, Effective events key (some record) →
      OutcomeIn events key outcome → Fitting record outcome) :
    ∃ rows keys, trainingRowsFromEvents events = .ok rows ∧ keys.Nodup ∧
      (∀ key, key ∈ keys ↔ (∃ record, SubmissionIn events key record) ∧
        ∃ outcome, OutcomeIn events key outcome) ∧
      List.Forall₂ (RowOf events) keys rows := by
  rw [← List.nil_append events] at hc
  obtain ⟨d, hcollect, hd⟩ := collected_empty.collect hc
  rw [List.nil_append] at hd
  have hentries : ∀ entry ∈ d.submissions.toList, d.submissions[entry.1]? = some entry.2 :=
    fun entry hentry => TreeMap.mem_toList_iff_getElem?_eq_some.mp hentry
  have hfitting : ∀ entry ∈ d.submissions.toList, ∀ outcome,
      d.outcomes[entry.1]? = some outcome → Fitting entry.2 outcome := by
    intro entry hentry outcome houtcome
    have heffective := hd.submissions entry.1
    have hlabel := hd.outcomes entry.1
    rw [hentries entry hentry] at heffective
    rw [houtcome] at hlabel
    exact hfit entry.1 entry.2 outcome heffective hlabel
  have hrows := trainingRows_ok hfitting
  obtain ⟨keys, hkeys, hperm⟩ := List.perm_comp_forall₂
    (Canonical.sorted_perm rowCmp _) (forall₂_rowOf hd hentries).flip
  refine ⟨_, keys, ?_, hperm.nodup_iff.mpr (nodup_labeledKeys d), fun key => ?_, hkeys.flip⟩
  · rw [trainingRowsFromEvents, hcollect]
    dsimp only [ok_bind]
    rw [hrows]
    rfl
  · rw [hperm.mem_iff]
    exact mem_labeledKeys.trans
      (and_congr (hd.submissions key).exists_iff (hd.outcomes key).exists_iff)

end Suwappu.Searcher
