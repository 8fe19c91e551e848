import Suwappu.Searcher.TrainingRows

/-!
# Look-ahead

A row is timed by its submission, and joined with the top bid of its slot over the whole list. What
was known at the time of a row is the list without later events, but with the outcome that labels
it. `no_look_ahead_iff` says which lists make rows that what was known makes as well.
-/

namespace Suwappu.Searcher

open Checked Std

variable {d d' : Dataset} {event : EventEnvelope} {events done : List EventEnvelope}
  {key : OrderKey} {record record' : SubmissionRecord} {outcome : OutcomeRecord} {slot : U64}

/-! ### Bids -/

/-- The bid of the relay an event reports, with its slot. -/
def EventEnvelope.bid? (event : EventEnvelope) : Option (U64 × U128) :=
  match event.payload with
  | .BuilderTrace _ opportunityId bidWei _ _ _ =>
    (relaySlot opportunityId).map fun slot => (slot, bidWei)
  | _ => none

def BidIn (events : List EventEnvelope) (slot : U64) (bidWei : U128) : Prop :=
  ∃ event ∈ events, event.bid? = some (slot, bidWei)

lemma bidIn_concat {bidWei : U128} : BidIn (events ++ [event]) slot bidWei ↔
    BidIn events slot bidWei ∨ event.bid? = some (slot, bidWei) := by
  simp [BidIn, or_and_right, exists_or]

/-- The highest bid of a slot. -/
def Topped (events : List EventEnvelope) (slot : U64) : Option U128 → Prop
  | none     => ∀ bidWei, ¬ BidIn events slot bidWei
  | some top => BidIn events slot top ∧ ∀ bidWei, BidIn events slot bidWei → bidWei ≤ top

lemma Topped.unique {top? top?' : Option U128} (h : Topped events slot top?)
    (h' : Topped events slot top?') : top? = top?' := by
  cases top? with
  | none =>
    cases top?' with
    | none => rfl
    | some top' => exact absurd h'.1 (h top')
  | some top =>
    cases top?' with
    | none => exact absurd h.1 (h' top)
    | some top' => rw [(h'.2 top h.1).antisymm (h.2 top' h'.1)]

lemma Topped.concat_of_ne {top? : Option U128} (h : Topped done slot top?)
    (hne : ∀ bidWei, event.bid? ≠ some (slot, bidWei)) : Topped (done ++ [event]) slot top? := by
  cases top? with
  | none =>
    intro bidWei hin
    exact (bidIn_concat.mp hin).elim (h bidWei) (hne bidWei)
  | some top =>
    refine ⟨bidIn_concat.mpr (.inl h.1), fun bidWei hin => ?_⟩
    exact h.2 bidWei ((bidIn_concat.mp hin).resolve_right (hne bidWei))

lemma Topped.concat {top? : Option U128} {bidWei : U128} (h : Topped done slot top?)
    (hbid : event.bid? = some (slot, bidWei)) :
    Topped (done ++ [event]) slot (some (top?.elim bidWei fun top => max top bidWei)) := by
  have hnew : ∀ bidWei', event.bid? = some (slot, bidWei') → bidWei' = bidWei := fun _ h' => by
    rw [hbid, Option.some.injEq, Prod.mk.injEq] at h'
    exact h'.2.symm
  cases top? with
  | none =>
    refine ⟨bidIn_concat.mpr (.inr hbid), fun bidWei' hin => ?_⟩
    exact (hnew bidWei' ((bidIn_concat.mp hin).resolve_left (h bidWei'))).le
  | some top =>
    refine ⟨bidIn_concat.mpr ?_, fun bidWei' hin => ?_⟩
    · dsimp only [Option.elim_some]
      rcases max_choice top bidWei with hmax | hmax
      · exact .inl (hmax.symm ▸ h.1)
      · exact .inr (hmax.symm ▸ hbid)
    · rcases bidIn_concat.mp hin with hin | hin
      · exact (h.2 bidWei' hin).trans (le_max_left ..)
      · exact (hnew bidWei' hin).le.trans (le_max_right ..)

/-- The tops of the slots after the events `done`. -/
def Tops (d : Dataset) (done : List EventEnvelope) : Prop :=
  ∀ slot, Topped done slot d.relayTopBySlot[slot]?

lemma observe_relayTop_of_none (h : event.bid? = none) (hobserve : d.observe event = .ok d') :
    d'.relayTopBySlot = d.relayTopBySlot := by
  unfold Dataset.observe at hobserve
  cases hp : event.payload with
  | BuilderTrace builder opportunityId bidWei simulated included failure =>
    simp only [EventEnvelope.bid?, hp, Option.map_eq_none_iff] at h
    simp only [hp, Except.ok.injEq, Dataset.observeTrace, h] at hobserve
    rw [hobserve]
  | BuilderSubmission =>
    simp only [hp, Dataset.observeSubmission] at hobserve
    split at hobserve
    · cases hobserve
      rfl
    split at hobserve
    · cases hobserve
      rfl
    split at hobserve
    · split at hobserve
      · cases hobserve
      · cases hobserve
        rfl
    · cases hobserve
      rfl
  | BuilderOutcome =>
    simp only [hp, Dataset.observeOutcome] at hobserve
    split at hobserve
    · split at hobserve
      · cases hobserve
      · cases hobserve
        rfl
    · cases hobserve
      rfl
  | _ =>
    simp only [hp, Except.ok.injEq] at hobserve
    rw [hobserve]

lemma Tops.observe (ht : Tops d done) (h : d.observe event = .ok d') :
    Tops d' (done ++ [event]) := by
  intro slot'
  cases hbid : event.bid? with
  | none =>
    rw [observe_relayTop_of_none hbid h]
    exact (ht slot').concat_of_ne (by simp [hbid])
  | some reported =>
    obtain ⟨slot, bidWei⟩ := reported
    have hbid' := hbid
    unfold EventEnvelope.bid? at hbid'
    split at hbid'
    · rename_i builder opportunityId bidWei' simulated included failure hp
      obtain ⟨slot, hslot, heq⟩ := Option.map_eq_some_iff.mp hbid'
      cases heq
      simp only [Dataset.observe, hp, Except.ok.injEq, Dataset.observeTrace, hslot] at h
      subst h
      rw [TreeMap.getElem?_insert]
      split
      · rename_i heq
        obtain rfl := LawfulEqOrd.eq_of_compare heq
        have htop := (ht slot).concat hbid
        cases hold : d.relayTopBySlot[slot]? with
        | none => simpa only [hold, Option.elim] using htop
        | some top => simpa only [hold, Option.elim] using htop
      · rename_i hne
        refine (ht slot').concat_of_ne fun bidWei h => hne ?_
        rw [hbid, Option.some.injEq, Prod.mk.injEq] at h
        rw [h.1]
        exact ReflOrd.compare_self
    · cases hbid'

/-! ### Which lists train -/

/-- Each event agrees with those before it. -/
def Agreed (events : List EventEnvelope) : Prop :=
  ∀ done event, done ++ [event] <+: events → Agrees done event

lemma agreed_concat : Agreed (events ++ [event]) ↔ Agreed events ∧ Agrees events event := by
  constructor
  · intro h
    exact ⟨fun done event' hinit => h done event' (hinit.trans (List.prefix_append ..)),
      h events event (List.prefix_refl _)⟩
  · rintro ⟨h, hevent⟩ done event' hinit
    rcases List.prefix_concat_iff.mp hinit with heq | hinit
    · obtain ⟨rfl, hlast⟩ := List.append_inj' heq rfl
      rwa [List.singleton_inj.mp hlast]
    · exact h done event' hinit

lemma effective_concat (h : Effective (events ++ [event]) key (some record))
    (hin : SubmissionIn events key record) : Effective events key (some record) :=
  ⟨hin, fun record' hin' => h.2 record' (submissionIn_concat.mpr (.inl hin'))⟩

/-- The submission that stands for an order is the only one. -/
lemma Agreed.effective_unique (ha : Agreed events) (h : Effective events key (some record))
    (h' : Effective events key (some record')) : record = record' := by
  induction events using List.reverseRecOn with
  | nil =>
    obtain ⟨event, hin, -⟩ := h.1
    cases hin
  | append_singleton events event ih =>
    obtain ⟨ha, hevent⟩ := agreed_concat.mp ha
    have hsequence := (h'.2 record h.1).antisymm (h.2 record' h'.1)
    rcases submissionIn_concat.mp h.1 with hin | hin
    · rcases submissionIn_concat.mp h'.1 with hin' | hin'
      · exact ih ha (effective_concat h hin) (effective_concat h' hin')
      · exact (hevent.submission key record' record hin' (effective_concat h hin)
          hsequence.symm).symm
    · rcases submissionIn_concat.mp h'.1 with hin' | hin'
      · exact hevent.submission key record record' hin (effective_concat h' hin') hsequence
      · rw [hin, Option.some.injEq, Prod.mk.injEq] at hin'
        exact hin'.2

lemma Agreed.outcome_unique (ha : Agreed events) {outcome' : OutcomeRecord}
    (h : OutcomeIn events key outcome) (h' : OutcomeIn events key outcome') :
    outcome = outcome' := by
  induction events using List.reverseRecOn with
  | nil =>
    obtain ⟨event, hin, -⟩ := h
    cases hin
  | append_singleton events event ih =>
    obtain ⟨ha, hevent⟩ := agreed_concat.mp ha
    rcases outcomeIn_concat.mp h with hin | hin
    · rcases outcomeIn_concat.mp h' with hin' | hin'
      · exact ih ha hin hin'
      · exact (hevent.outcome key outcome' outcome hin' hin).symm
    · rcases outcomeIn_concat.mp h' with hin' | hin'
      · exact hevent.outcome key outcome outcome' hin hin'
      · rw [hin, Option.some.injEq, Prod.mk.injEq] at hin'
        exact hin'.2

lemma collect_concat : d.collect (events ++ [event]) =
    (do let d ← d.collect events; d.observe event) := by
  induction events generalizing d with
  | nil =>
    simp only [List.nil_append, Dataset.collect, bind_pure]
    rfl
  | cons first events ih => simp only [List.cons_append, Dataset.collect, ih, bind_assoc]

/-- An event that the first loop accepts agrees with those before. -/
lemma Collected.agrees (hd : Collected d done) (ha : Agreed done)
    (h : d.observe event = .ok d') : Agrees done event where
  submission key record existing hs he heq := by
    have hstored := hd.submissions key
    rw [(observe_of_submission hs).1, Dataset.observeSubmission] at h
    cases hold : d.submissions[key]? with
    | none =>
      rw [hold] at hstored
      exact absurd he.1 (hstored existing)
    | some stored =>
      rw [hold] at hstored
      obtain rfl := ha.effective_unique hstored he
      by_contra hne
      simp only [hold, heq, gt_iff_lt, lt_self_iff_false, if_false, if_true, ne_eq,
        Ne.symm hne, not_false_eq_true, reduceCtorEq] at h
  outcome key outcome existing ho hin := by
    have hstored := hd.outcomes key
    rw [(observe_of_outcome ho).1, Dataset.observeOutcome] at h
    cases hold : d.outcomes[key]? with
    | none =>
      rw [hold] at hstored
      exact absurd hin (hstored existing)
    | some stored =>
      rw [hold] at hstored
      obtain rfl := ha.outcome_unique hstored hin
      by_contra hne
      simp only [hold, ne_eq, Ne.symm hne, not_false_eq_true, if_true, reduceCtorEq] at h

/-- The first loop runs through exactly if the events agree, and then has collected them. -/
lemma collect_ok (events : List EventEnvelope) :
    (Agreed events → ∃ d, Dataset.empty.collect events = .ok d) ∧
      ∀ d, Dataset.empty.collect events = .ok d →
        Agreed events ∧ Collected d events ∧ Tops d events := by
  induction events using List.reverseRecOn with
  | nil =>
    refine ⟨fun _ => ⟨_, rfl⟩, fun d h => ?_⟩
    cases h
    refine ⟨fun done event hinit => ?_, collected_empty, fun slot => ?_⟩
    · simp at hinit
    · simp [Dataset.empty, Topped, BidIn]
  | append_singleton events event ih =>
    rw [collect_concat, agreed_concat]
    constructor
    · rintro ⟨ha, hevent⟩
      obtain ⟨d, hd⟩ := ih.1 ha
      obtain ⟨d', hobserve, -⟩ := (ih.2 d hd).2.1.observe hevent
      exact ⟨d', bind_ok_iff.mpr ⟨d, hd, hobserve⟩⟩
    · intro d' h
      obtain ⟨d, hd, hobserve⟩ := bind_ok_iff.mp h
      obtain ⟨ha, hcollected, htops⟩ := ih.2 d hd
      have hevent := hcollected.agrees ha hobserve
      obtain ⟨d'', hobserve', hcollected'⟩ := hcollected.observe hevent
      obtain rfl := Except.ok.inj (hobserve'.symm.trans hobserve)
      exact ⟨⟨ha, hevent⟩, hcollected', htops.observe hobserve⟩

lemma fitting_of_trainingRows {submissions : List (OrderKey × SubmissionRecord)}
    {rows : List BuilderTrainingRow} (h : d.trainingRows submissions = .ok rows) :
    ∀ entry ∈ submissions, ∀ outcome, d.outcomes[entry.1]? = some outcome →
      Fitting entry.2 outcome := by
  induction submissions generalizing rows with
  | nil => exact fun entry hentry => absurd hentry List.not_mem_nil
  | cons first submissions ih =>
    obtain ⟨key, submission⟩ := first
    simp only [Dataset.trainingRows, bind_ok_iff] at h
    obtain ⟨row, hrow, rows', hrows, -⟩ := h
    intro entry hentry outcome houtcome
    rcases List.mem_cons.mp hentry with rfl | hentry
    · simp only [Dataset.trainingRow, houtcome] at hrow
      split at hrow
      · cases hrow
      · rename_i hslot
        split at hrow
        · cases hrow
        · rename_i hage
          exact ⟨not_not.mp hslot, le_of_not_gt hage⟩
    · exact ih hrows entry hentry outcome houtcome

/-- The events agree, and every outcome fits the submission that stands for its order. -/
structure Trainable (events : List EventEnvelope) : Prop where
  agreed : Agreed events
  fitting : ∀ key record outcome, Effective events key (some record) →
    OutcomeIn events key outcome → Fitting record outcome

lemma stored_of_effective (ha : Agreed events) (hd : Collected d events)
    (h : Effective events key (some record)) : d.submissions[key]? = some record := by
  have hstored := hd.submissions key
  cases hold : d.submissions[key]? with
  | none =>
    rw [hold] at hstored
    exact absurd h.1 (hstored record)
  | some stored =>
    rw [hold] at hstored
    rw [ha.effective_unique hstored h]

lemma stored_of_outcome (ha : Agreed events) (hd : Collected d events)
    (h : OutcomeIn events key outcome) : d.outcomes[key]? = some outcome := by
  have hstored := hd.outcomes key
  cases hold : d.outcomes[key]? with
  | none =>
    rw [hold] at hstored
    exact absurd h (hstored outcome)
  | some stored =>
    rw [hold] at hstored
    rw [ha.outcome_unique hstored h]

/-- `trainingRowsFromEvents` succeeds on exactly the trainable lists. -/
theorem trains_iff :
    (∃ rows, trainingRowsFromEvents events = .ok rows) ↔ Trainable events := by
  simp only [trainingRowsFromEvents, bind_ok_iff, pure_ok_iff]
  constructor
  · rintro ⟨_, d, hcollect, rows, hrows, -⟩
    obtain ⟨ha, hd, -⟩ := (collect_ok events).2 d hcollect
    refine ⟨ha, fun key record outcome he ho => ?_⟩
    exact fitting_of_trainingRows hrows (key, record)
      (TreeMap.mem_toList_iff_getElem?_eq_some.mpr (stored_of_effective ha hd he)) outcome
      (stored_of_outcome ha hd ho)
  · intro ht
    obtain ⟨d, hcollect⟩ := (collect_ok events).1 ht.agreed
    obtain ⟨-, hd, -⟩ := (collect_ok events).2 d hcollect
    refine ⟨_, d, hcollect, _, trainingRows_ok fun entry hentry outcome houtcome => ?_, rfl⟩
    have he := hd.submissions entry.1
    have ho := hd.outcomes entry.1
    rw [TreeMap.mem_toList_iff_getElem?_eq_some.mp hentry] at he
    rw [houtcome] at ho
    exact ht.fitting entry.1 entry.2 outcome he ho

/-! ### The row of an order -/

/-- The row that `trainingRowsFromEvents` makes of an order. -/
def rowFor? (events : List EventEnvelope) (key : OrderKey) : Option BuilderTrainingRow := do
  let _ ← (trainingRowsFromEvents events).toOption
  let d ← (Dataset.empty.collect events).toOption
  let submission ← d.submissions[key]?
  let outcome ← d.outcomes[key]?
  return d.row key submission outcome

/-- The rows are those of the orders. -/
theorem mem_rows_iff {rows : List BuilderTrainingRow}
    (h : trainingRowsFromEvents events = .ok rows) (row : BuilderTrainingRow) :
    row ∈ rows ↔ ∃ key, rowFor? events key = some row := by
  have hrows := h
  simp only [trainingRowsFromEvents, bind_ok_iff, pure_ok_iff] at hrows
  obtain ⟨d, hcollect, rows', hrows, rfl⟩ := hrows
  rw [(Canonical.sorted_perm rowCmp rows').mem_iff]
  have hmade := trainingRows_ok (fitting_of_trainingRows hrows)
  obtain rfl := Except.ok.inj (hrows.symm.trans hmade)
  simp only [List.mem_filterMap, Option.map_eq_some_iff, rowFor?, h, hcollect, Except.toOption,
    Option.bind_eq_bind, Option.bind_some, Option.bind_eq_some_iff, Option.pure_def,
    Option.some.injEq]
  constructor
  · rintro ⟨⟨key, record⟩, hentry, outcome, houtcome, rfl⟩
    exact ⟨key, record, TreeMap.mem_toList_iff_getElem?_eq_some.mp hentry, outcome, houtcome, rfl⟩
  · rintro ⟨key, record, hrecord, outcome, houtcome, rfl⟩
    exact ⟨(key, record), TreeMap.mem_toList_iff_getElem?_eq_some.mpr hrecord, outcome, houtcome,
      rfl⟩

lemma rowFor?_eq_some_iff {row : BuilderTrainingRow} : rowFor? events key = some row ↔
    Trainable events ∧ ∃ d record outcome, Tops d events ∧ Effective events key (some record) ∧
      OutcomeIn events key outcome ∧ d.row key record outcome = row := by
  constructor
  · intro h
    simp only [rowFor?, Option.bind_eq_bind, Option.bind_eq_some_iff, Option.pure_def,
      Option.some.injEq, toOption_eq_some_iff] at h
    obtain ⟨rows, hrows, d, hcollect, record, hrecord, outcome, houtcome, rfl⟩ := h
    obtain ⟨-, hd, htops⟩ := (collect_ok events).2 d hcollect
    have he := hd.submissions key
    have ho := hd.outcomes key
    rw [hrecord] at he
    rw [houtcome] at ho
    exact ⟨trains_iff.mp ⟨rows, hrows⟩, d, record, outcome, htops, he, ho, rfl⟩
  · rintro ⟨ht, d, record, outcome, htops, he, ho, rfl⟩
    obtain ⟨rows, hrows⟩ := trains_iff.mpr ht
    obtain ⟨d', hcollect⟩ := (collect_ok events).1 ht.agreed
    obtain ⟨ha, hd, htops'⟩ := (collect_ok events).2 d' hcollect
    simp only [rowFor?, hrows, hcollect, Except.toOption, Option.bind_eq_bind, Option.bind_some,
      stored_of_effective ha hd he, stored_of_outcome ha hd ho, Option.pure_def, Dataset.row,
      (htops record.slot).unique (htops' record.slot)]

/-! ### What was known -/

/-- Everything but the label. -/
def BuilderTrainingRow.features (row : BuilderTrainingRow) : BuilderTrainingRow :=
  { row with included := false }

/-- The events up to a time, and the outcome of the order. -/
def known (events : List EventEnvelope) (key : OrderKey) (timestampNs : U64) :
    List EventEnvelope :=
  events.filter fun event =>
    event.exchangeTsNs ≤ timestampNs ∨ (event.outcome?.map Prod.fst) = some key

/-- No row changes its features when later events are taken away, its outcome apart. -/
def NoLookAhead (events : List EventEnvelope) : Prop :=
  ∀ key row, rowFor? events key = some row →
    ∃ row', rowFor? (known events key row.timestampNs) key = some row' ∧
      row'.features = row.features

/-- No later bid tops the ones of the slot that were in by the time of the submission. -/
def TopKnown (events : List EventEnvelope) (record : SubmissionRecord) : Prop :=
  ∀ event ∈ events, ∀ bidWei, event.bid? = some (record.slot, bidWei) →
    ∃ event' ∈ events, event'.exchangeTsNs ≤ record.timestampNs ∧
      ∃ bidWei', event'.bid? = some (record.slot, bidWei') ∧ bidWei ≤ bidWei'

section Known

variable {timestampNs : U64}

lemma mem_known : event ∈ known events key timestampNs ↔ event ∈ events ∧
    (event.exchangeTsNs ≤ timestampNs ∨ event.outcome?.map Prod.fst = some key) := by
  simp only [known, List.mem_filter, decide_eq_true_eq, Bool.decide_or, Bool.or_eq_true]

lemma timestampNs_of_submission (h : event.submission? = some (key, record)) :
    record.timestampNs = event.exchangeTsNs := by
  unfold EventEnvelope.submission? at h
  split at h
  · cases h
    rfl
  · cases h

lemma outcome?_of_bid {bidWei : U128} (h : event.bid? = some (slot, bidWei)) :
    event.outcome? = none := by
  unfold EventEnvelope.bid? at h
  unfold EventEnvelope.outcome?
  split at h
  · rename_i hp
    rw [hp]
  · cases h

lemma submissionIn_known {key' : OrderKey} :
    SubmissionIn (known events key timestampNs) key' record ↔
      SubmissionIn events key' record ∧ record.timestampNs ≤ timestampNs := by
  constructor
  · rintro ⟨event, hevent, hreport⟩
    obtain ⟨hevent, hknown⟩ := mem_known.mp hevent
    rw [(observe_of_submission (d := .empty) hreport).2] at hknown
    rw [timestampNs_of_submission hreport]
    exact ⟨⟨event, hevent, hreport⟩, hknown.resolve_right (by simp)⟩
  · rintro ⟨⟨event, hevent, hreport⟩, hle⟩
    rw [timestampNs_of_submission hreport] at hle
    exact ⟨event, mem_known.mpr ⟨hevent, .inl hle⟩, hreport⟩

lemma outcomeIn_known : OutcomeIn (known events key timestampNs) key outcome ↔
    OutcomeIn events key outcome := by
  constructor
  · rintro ⟨event, hevent, hreport⟩
    exact ⟨event, (mem_known.mp hevent).1, hreport⟩
  · rintro ⟨event, hevent, hreport⟩
    exact ⟨event, mem_known.mpr ⟨hevent, .inr (by rw [hreport]; rfl)⟩, hreport⟩

lemma bidIn_known {bidWei : U128} : BidIn (known events key timestampNs) slot bidWei ↔
    ∃ event ∈ events, event.exchangeTsNs ≤ timestampNs ∧
      event.bid? = some (slot, bidWei) := by
  constructor
  · rintro ⟨event, hevent, hreport⟩
    obtain ⟨hevent, hknown⟩ := mem_known.mp hevent
    rw [outcome?_of_bid hreport] at hknown
    exact ⟨event, hevent, hknown.resolve_right (by simp), hreport⟩
  · rintro ⟨event, hevent, hle, hreport⟩
    exact ⟨event, mem_known.mpr ⟨hevent, .inl hle⟩, hreport⟩

lemma Effective.known (he : Effective events key (some record)) :
    Effective (known events key record.timestampNs) key (some record) :=
  ⟨submissionIn_known.mpr ⟨he.1, le_rfl⟩, fun record' hin =>
    he.2 record' (submissionIn_known.mp hin).1⟩

/-- The top of a slot was known exactly if no later bid is higher. -/
lemma topKnown_iff {top? top?' : Option U128} (h : Topped events record.slot top?)
    (h' : Topped (Searcher.known events key record.timestampNs) record.slot top?') :
    TopKnown events record ↔ top?' = top? := by
  constructor
  · intro hknown
    cases top? with
    | none =>
      cases top?' with
      | none => rfl
      | some top' =>
        obtain ⟨event, hevent, -, hbid⟩ := bidIn_known.mp h'.1
        exact absurd ⟨event, hevent, hbid⟩ (h top')
    | some top =>
      obtain ⟨event, hevent, hbid⟩ := h.1
      obtain ⟨event', hevent', hle, bidWei', hbid', htop⟩ := hknown event hevent top hbid
      have hin : BidIn (Searcher.known events key record.timestampNs) record.slot bidWei' :=
        bidIn_known.mpr ⟨event', hevent', hle, hbid'⟩
      cases top?' with
      | none => exact absurd hin (h' bidWei')
      | some top' =>
        obtain ⟨event₁, hevent₁, -, hbid₁⟩ := bidIn_known.mp h'.1
        rw [(h.2 top' ⟨event₁, hevent₁, hbid₁⟩).antisymm (htop.trans (h'.2 bidWei' hin))]
  · rintro rfl event hevent bidWei hbid
    cases top?' with
    | none => exact absurd ⟨event, hevent, hbid⟩ (h bidWei)
    | some top =>
      obtain ⟨event', hevent', hle, hbid'⟩ := bidIn_known.mp h'.1
      exact ⟨event', hevent', hle, top, hbid', h.2 bidWei ⟨event, hevent, hbid⟩⟩

end Known

/-- Rows look ahead unless, for each order with an outcome, what was known at its submission trains
by itself, and no later bid tops its slot. -/
theorem no_look_ahead_iff (events : List EventEnvelope) :
    NoLookAhead events ↔ (Trainable events → ∀ key record outcome,
      Effective events key (some record) → OutcomeIn events key outcome →
        Trainable (known events key record.timestampNs) ∧ TopKnown events record) := by
  constructor
  · intro h ht key record outcome he ho
    obtain ⟨rows, hrows⟩ := trains_iff.mpr ht
    obtain ⟨d, hcollect⟩ := (collect_ok events).1 ht.agreed
    have htops := ((collect_ok events).2 d hcollect).2.2
    obtain ⟨row', hrow', hfeatures⟩ := h key _
      (rowFor?_eq_some_iff.mpr ⟨ht, d, record, outcome, htops, he, ho, rfl⟩)
    obtain ⟨ht', d', record', outcome', htops', he', -, rfl⟩ := rowFor?_eq_some_iff.mp hrow'
    obtain rfl := ht'.agreed.effective_unique he' he.known
    refine ⟨ht', (topKnown_iff (htops _) (htops' _)).mpr ?_⟩
    exact congrArg BuilderTrainingRow.relayTopBidWei hfeatures
  · intro h key row hrow
    obtain ⟨ht, d, record, outcome, htops, he, ho, rfl⟩ := rowFor?_eq_some_iff.mp hrow
    obtain ⟨ht', htop⟩ := h ht key record outcome he ho
    obtain ⟨d', hcollect⟩ := (collect_ok (known events key record.timestampNs)).1 ht'.agreed
    have htops' := ((collect_ok _).2 d' hcollect).2.2
    refine ⟨_, rowFor?_eq_some_iff.mpr ⟨ht', d', record, outcome, htops', he.known,
      outcomeIn_known.mpr ho, rfl⟩, ?_⟩
    simp only [BuilderTrainingRow.features, Dataset.row,
      (topKnown_iff (htops record.slot) (htops' record.slot)).mp htop]

/-! ### A bid that came later -/

def testEvent (eventId : EventId) (timestampNs : U64) (payload : MarketEvent) : EventEnvelope where
  schemaVersion := 1
  eventId := eventId
  source := "test"
  exchangeTsNs := timestampNs
  receiveTsNs := timestampNs
  sequence := none
  clockUncertaintyNs := 0
  chain := none
  payload := payload

/-- An order, then a bid in its slot, then its outcome. -/
def bidAfterOrder : List EventEnvelope :=
  [testEvent "submit" 3000000
      (.BuilderSubmission "titan" "opp-1" 123 150 1000 1000000 3000 9900 (some 1)),
    testEvent "relay" 4000000 (.BuilderTrace "builder-a" "relay:123:0xaaa" 300 true false none),
    testEvent "outcome" 5000000 (.BuilderOutcome "titan" "opp-1" 123 true none)]

/-- The row of the order knows the bid that came a millisecond after it. -/
theorem bidAfterOrder_looks_ahead : ¬ NoLookAhead bidAfterOrder := by
  intro h
  obtain ⟨row', hrow', hfeatures⟩ := h ("titan", "opp-1")
    ⟨3000000, "titan", 123, 150, 1000, 2, 3000, 9900, some 300, true⟩ (by decide +kernel)
  have hknown : (rowFor? (known bidAfterOrder ("titan", "opp-1") 3000000)
      ("titan", "opp-1")).map (·.relayTopBidWei) = some none := by decide +kernel
  rw [hrow', Option.map_some, Option.some.injEq] at hknown
  have htop := congrArg BuilderTrainingRow.relayTopBidWei hfeatures
  dsimp only [BuilderTrainingRow.features] at htop
  rw [hknown] at htop
  cases htop

end Suwappu.Searcher
