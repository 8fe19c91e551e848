import Suwappu.Lib.Canonical
import Suwappu.Lib.Checked
import Suwappu.Searcher.Events

/-!
# Replay

`replay` deduplicates a log of events by their ids, puts them in the order of `replay_cmp`, and
reports where the sequence numbers of a source jump or go back. The report depends on which events
arrived, not on when or how often.
-/

namespace Suwappu.Searcher

open Checked

inductive SequenceAnomaly where
  | Gap (source : SourceId) (expected observed : U64)
  | Regression (source : SourceId) (previous observed : U64)
deriving DecidableEq

structure ReplayReport where
  events : List EventEnvelope
  duplicateCount : ℕ
  sequenceAnomalies : List SequenceAnomaly
  digestHex : String
deriving DecidableEq

inductive ReplayError where
  | ConflictingDuplicate (eventId : EventId)
  | Serialization (message : String)
deriving DecidableEq

/-- The libraries replay calls: `serde_json::to_vec` and the hex digest of `blake3`. -/
structure Codec where
  toVec : EventEnvelope → Except String (List UInt8)
  digest : List UInt8 → String

/-- The order in which a `HashMap` gives up its values. -/
structure HashOrder where
  intoValues : List EventEnvelope → List EventEnvelope
  perm : ∀ events, (intoValues events).Perm events

/-- The first loop: the events by id, in order of arrival, and the number of exact duplicates. -/
def collectUnique : List EventEnvelope → ℕ → List EventEnvelope →
    Except ReplayError (List EventEnvelope × ℕ)
  | unique, duplicateCount, []              => .ok (unique, duplicateCount)
  | unique, duplicateCount, event :: events =>
    match unique.find? (fun existing => existing.eventId = event.eventId) with
    | some existing =>
      if existing = event then collectUnique unique (duplicateCount + 1) events
      else .error (.ConflictingDuplicate event.eventId)
    | none          => collectUnique (unique ++ [event]) duplicateCount events

/-- What one sequence number says after the highest one before it. -/
def sequenceAnomaly (source : SourceId) (previous : Option U64) (sequence : U64) :
    List SequenceAnomaly :=
  match previous with
  | none          => []
  | some previous =>
    let expected := previous.saturatingAdd 1
    if sequence > expected then [.Gap source expected sequence]
    else if sequence ≤ previous then [.Regression source previous sequence]
    else []

/-- The second loop, over the events in order. -/
def sequenceAnomalies : (SourceId → Option U64) → List EventEnvelope → List SequenceAnomaly
  | _, []                          => []
  | lastSequence, event :: ordered =>
    match event.sequence with
    | none          => sequenceAnomalies lastSequence ordered
    | some sequence =>
      let highest := match lastSequence event.source with
        | some previous => max previous sequence
        | none          => sequence
      sequenceAnomaly event.source (lastSequence event.source) sequence ++
        sequenceAnomalies (Function.update lastSequence event.source (some highest)) ordered

/-- The bytes of a word, the highest first. -/
def toBeBytes (n : U64) : List UInt8 :=
  (List.range 8).reverse.map fun i => UInt8.ofNat (n.val / 256 ^ i)

/-- What the hasher is fed: every event with its length before it. -/
def hasherInput (codec : Codec) : List EventEnvelope → Except ReplayError (List UInt8)
  | []               => pure []
  | event :: ordered => do
    let bytes ← (codec.toVec event).mapError .Serialization
    let rest ← hasherInput codec ordered
    return toBeBytes (.ofNat _ bytes.length) ++ bytes ++ rest

/-- The report on the events in order. -/
def reportOf (codec : Codec) (duplicateCount : ℕ) (ordered : List EventEnvelope) :
    Except ReplayError ReplayReport := do
  let bytes ← hasherInput codec ordered
  return {
    events := ordered
    duplicateCount := duplicateCount
    sequenceAnomalies := sequenceAnomalies (fun _ => none) ordered
    digestHex := codec.digest bytes }

def replay (codec : Codec) (order : HashOrder) (events : List EventEnvelope) :
    Except ReplayError ReplayReport := do
  let (unique, duplicateCount) ← collectUnique [] 0 events
  reportOf codec duplicateCount
    (Canonical.sorted EventEnvelope.replayCmp (order.intoValues unique))

variable {event : EventEnvelope} {events events' unique unique' ordered : List EventEnvelope}
  {n n' : ℕ} {source : SourceId} {lastSequence : SourceId → Option U64} {codec : Codec}
  {order order' : HashOrder}

/-! ### Duplicates -/

/-- Two different events with one id. -/
def Conflicting (events : List EventEnvelope) : Prop :=
  ∃ a ∈ events, ∃ b ∈ events, a.eventId = b.eventId ∧ a ≠ b

/-- No two entries have one id. -/
def DistinctIds (events : List EventEnvelope) : Prop :=
  events.Pairwise fun a b => a.eventId ≠ b.eventId

lemma DistinctIds.nodup (h : DistinctIds events) : events.Nodup :=
  h.imp fun hne heq => hne (congrArg _ heq)

lemma DistinctIds.eq (h : DistinctIds events) {a b : EventEnvelope} (ha : a ∈ events)
    (hb : b ∈ events) (hid : a.eventId = b.eventId) : a = b := by
  by_contra hne
  have : Std.Symm fun a b : EventEnvelope => a.eventId ≠ b.eventId := ⟨fun _ _ => Ne.symm⟩
  exact h.forall ha hb hne hid

lemma DistinctIds.concat (h : DistinctIds events)
    (hnew : ∀ other ∈ events, other.eventId ≠ event.eventId) : DistinctIds (events ++ [event]) := by
  refine List.pairwise_append.mpr ⟨h, List.pairwise_singleton .., fun a ha b hb => ?_⟩
  rw [List.mem_singleton.mp hb]
  exact hnew a ha

lemma collectUnique_ok (hd : DistinctIds unique)
    (h : collectUnique unique n events = .ok (unique', n')) :
    DistinctIds unique' ∧ ∀ event, event ∈ unique' ↔ event ∈ unique ∨ event ∈ events := by
  induction events generalizing unique n with
  | nil =>
    simp only [collectUnique, Except.ok.injEq, Prod.mk.injEq] at h
    obtain ⟨rfl, -⟩ := h
    exact ⟨hd, by simp⟩
  | cons event events ih =>
    rw [collectUnique] at h
    split at h
    · rename_i existing hfind
      split at h
      · rename_i heq
        subst heq
        have hmem := List.mem_of_find?_eq_some hfind
        obtain ⟨hd', hmem'⟩ := ih hd h
        refine ⟨hd', fun e => ?_⟩
        rw [hmem', List.mem_cons]
        constructor
        · tauto
        · rintro (he | rfl | he)
          · exact .inl he
          · exact .inl hmem
          · exact .inr he
      · simp at h
    · rename_i hfind
      obtain ⟨hd', hmem'⟩ := ih (hd.concat (by simpa using hfind)) h
      exact ⟨hd', fun e => by rw [hmem']; simp [or_assoc]⟩

lemma collectUnique_error {e : ReplayError} (h : collectUnique unique n events = .error e) :
    Conflicting (unique ++ events) := by
  induction events generalizing unique n with
  | nil => simp [collectUnique] at h
  | cons event events ih =>
    rw [collectUnique] at h
    split at h
    · rename_i existing hfind
      split at h
      · obtain ⟨a, ha, b, hb, hab⟩ := ih h
        exact ⟨a, by simp at ha ⊢; tauto, b, by simp at hb ⊢; tauto, hab⟩
      · rename_i hne
        exact ⟨existing, by simp [List.mem_of_find?_eq_some hfind], event, by simp,
          by simpa using List.find?_some hfind, hne⟩
    · simpa using ih h

/-- The first loop fails just on conflicts; otherwise it keeps one copy of every event. -/
lemma collectUnique_cases (events : List EventEnvelope) :
    (∃ unique n, collectUnique [] 0 events = .ok (unique, n) ∧ ¬ Conflicting events ∧
      DistinctIds unique ∧ ∀ event, event ∈ unique ↔ event ∈ events) ∨
    (∃ e, collectUnique [] 0 events = .error e ∧ Conflicting events) := by
  cases h : collectUnique [] 0 events with
  | error e => exact .inr ⟨e, rfl, by simpa using collectUnique_error h⟩
  | ok result =>
    obtain ⟨unique, n⟩ := result
    obtain ⟨hd, hmem⟩ := collectUnique_ok List.Pairwise.nil h
    simp only [List.not_mem_nil, false_or] at hmem
    refine .inl ⟨unique, n, rfl, ?_, hd, hmem⟩
    rintro ⟨a, ha, b, hb, hid, hne⟩
    exact hne (hd.eq ((hmem a).mpr ha) ((hmem b).mpr hb) hid)

/-! ### Gaps and regressions -/

/-- The sequence numbers of one source, in the order of the list. -/
def sequencesOf (source : SourceId) (events : List EventEnvelope) : List U64 :=
  events.filterMap fun event => if event.source = source then event.sequence else none

/-- Each number is the one before plus one. -/
def Consecutive (sequences : List U64) : Prop :=
  sequences.IsChain fun previous next => next.val = previous.val + 1

lemma sequenceAnomaly_eq_nil_iff {previous sequence : U64} :
    sequenceAnomaly source (some previous) sequence = [] ↔ sequence.val = previous.val + 1 := by
  have hlt := sequence.isLt
  simp only [sequenceAnomaly, U64.saturatingAdd, gt_iff_lt, Fin.lt_def, Fin.le_def]
  split
  · simp only [reduceCtorEq, false_iff]
    have h1 : ((1 : U64) : ℕ) = 1 := rfl
    omega
  · rename_i hgap
    have h1 : ((1 : U64) : ℕ) = 1 := rfl
    split <;> simp only [reduceCtorEq, false_iff, true_iff] <;> omega

lemma forall_iff_forall_ne {α : Type} {p : α → Prop} (a : α) :
    (∀ x, p x) ↔ p a ∧ ∀ x ≠ a, p x := by
  refine ⟨fun h => ⟨h a, fun x _ => h x⟩, fun ⟨ha, h⟩ x => ?_⟩
  by_cases hx : x = a
  · rwa [hx]
  · exact h x hx

/-- The second loop finds nothing just if every source continues what was seen of it. -/
lemma sequenceAnomalies_eq_nil_iff :
    sequenceAnomalies lastSequence ordered = [] ↔
      ∀ source, Consecutive ((lastSequence source).toList ++ sequencesOf source ordered) := by
  induction ordered generalizing lastSequence with
  | nil =>
    simp only [sequenceAnomalies, sequencesOf, List.filterMap_nil, List.append_nil, true_iff]
    intro source
    cases lastSequence source <;> simp [Consecutive]
  | cons event ordered ih =>
    rw [sequenceAnomalies]
    cases hs : event.sequence with
    | none =>
      have hsame : ∀ source, sequencesOf source (event :: ordered) = sequencesOf source ordered :=
        fun source => by simp [sequencesOf, hs]
      simp only [hsame]
      exact ih
    | some sequence =>
      have hself : sequencesOf event.source (event :: ordered)
          = sequence :: sequencesOf event.source ordered := by simp [sequencesOf, hs]
      have hother : ∀ source ≠ event.source,
          sequencesOf source (event :: ordered) = sequencesOf source ordered :=
        fun source hne => by simp [sequencesOf, Ne.symm hne]
      have hsplit : (∀ source, Consecutive ((lastSequence source).toList ++
          sequencesOf source (event :: ordered))) ↔
          Consecutive ((lastSequence event.source).toList ++
            sequence :: sequencesOf event.source ordered) ∧
          ∀ source ≠ event.source, Consecutive ((lastSequence source).toList ++
            sequencesOf source ordered) := by
        rw [forall_iff_forall_ne event.source, hself]
        exact and_congr_right fun _ => forall₂_congr fun source hne => by rw [hother source hne]
      dsimp only
      rw [List.append_eq_nil_iff, ih, hsplit,
        Function.forall_update_iff lastSequence
          (p := fun source last => Consecutive (last.toList ++ sequencesOf source ordered)),
        ← and_assoc]
      refine and_congr_left fun _ => ?_
      cases lastSequence event.source with
      | none => simp [sequenceAnomaly]
      | some previous =>
        rw [sequenceAnomaly_eq_nil_iff]
        dsimp only [Option.toList_some, List.cons_append, List.nil_append]
        rw [Consecutive, Consecutive, List.isChain_cons_cons]
        refine and_congr_right fun hnext => ?_
        rw [max_eq_right (Fin.le_def.mpr (by omega))]

/-! ### The report -/

/-- What two reports share when only arrival differs. -/
structure ReplayReport.Agree (r r' : ReplayReport) : Prop where
  events : r.events = r'.events
  sequenceAnomalies : r.sequenceAnomalies = r'.sequenceAnomalies
  digestHex : r.digestHex = r'.digestHex

lemma Conflicting.of_mem_iff (h : ∀ event, event ∈ events ↔ event ∈ events') :
    Conflicting events ↔ Conflicting events' := by
  simp only [Conflicting, h]

variable (codec order) in
lemma replay_of_conflicting (h : Conflicting events) :
    ∃ e, replay codec order events = .error e := by
  rcases collectUnique_cases events with ⟨unique, n, -, hnot, -⟩ | ⟨e, he, -⟩
  · exact absurd h hnot
  · exact ⟨e, by rw [replay, he]; rfl⟩

variable (codec order) in
/-- Without conflicts a replay reports on the events of the log, each once and in the order of
`replay_cmp`. -/
lemma replay_of_not_conflicting (h : ¬ Conflicting events) : ∃ unique n,
    DistinctIds unique ∧ (∀ event, event ∈ unique ↔ event ∈ events) ∧ replay codec order events
      = reportOf codec n (Canonical.sorted EventEnvelope.replayCmp unique) := by
  rcases collectUnique_cases events with ⟨unique, n, hok, -, hd, hmem⟩ | ⟨-, -, hconflict⟩
  · refine ⟨unique, n, hd, hmem, ?_⟩
    have hsorted : Canonical.sorted EventEnvelope.replayCmp unique
        = Canonical.sorted EventEnvelope.replayCmp (order.intoValues unique) :=
      Canonical.sorted_eq_of_perm
        (fun _ ha _ hb hab => hd.eq ha hb (eventId_eq_of_replayCmp hab)) (order.perm unique).symm
    rw [replay, hok, hsorted]
    rfl
  · exact absurd hconflict h

lemma sorted_eq_of_distinctIds (hd : DistinctIds unique) (hd' : DistinctIds unique')
    (h : ∀ event, event ∈ unique ↔ event ∈ unique') :
    Canonical.sorted EventEnvelope.replayCmp unique
      = Canonical.sorted EventEnvelope.replayCmp unique' :=
  Canonical.sorted_eq_of_mem_iff
    (fun _ ha _ hb hab => hd.eq ha hb (eventId_eq_of_replayCmp hab)) hd.nodup hd'.nodup h

lemma reportOf_ok {r : ReplayReport} (h : reportOf codec n ordered = .ok r) :
    ∃ bytes, hasherInput codec ordered = .ok bytes ∧ r.events = ordered ∧
      r.sequenceAnomalies = sequenceAnomalies (fun _ => none) ordered ∧
      r.digestHex = codec.digest bytes := by
  simp only [reportOf, bind_ok_iff, pure_ok_iff] at h
  obtain ⟨bytes, hbytes, rfl⟩ := h
  exact ⟨bytes, hbytes, rfl, rfl, rfl⟩

lemma reportOf_error_iff {e : ReplayError} :
    reportOf codec n ordered = .error e ↔ hasherInput codec ordered = .error e := by
  simp only [reportOf, bind_error_iff, pure_ne_error, and_false, exists_false, or_false]

/-- Two replays of one log: both fail, or they agree, and they report no anomaly just if the
sequence numbers of every source are consecutive. -/
def SameReplay : Except ReplayError ReplayReport → Except ReplayError ReplayReport → Prop
  | .ok r, .ok r'       =>
    r.Agree r' ∧ (r.sequenceAnomalies = [] ↔ ∀ source, Consecutive (sequencesOf source r.events))
  | .error _, .error _  => True
  | _, _                => False

/-- A replay depends on the members of the log alone. -/
lemma sameReplay_of_mem_iff (h : ∀ event, event ∈ events ↔ event ∈ events') :
    SameReplay (replay codec order events) (replay codec order' events') := by
  by_cases hconflict : Conflicting events
  · obtain ⟨e, he⟩ := replay_of_conflicting codec order hconflict
    obtain ⟨e', he'⟩ := replay_of_conflicting codec order'
      ((Conflicting.of_mem_iff h).mp hconflict)
    rw [he, he']
    trivial
  obtain ⟨unique, n, hd, hmem, hreplay⟩ := replay_of_not_conflicting codec order hconflict
  obtain ⟨unique', n', hd', hmem', hreplay'⟩ := replay_of_not_conflicting codec order' fun h' =>
    hconflict ((Conflicting.of_mem_iff h).mpr h')
  rw [hreplay, hreplay', ← sorted_eq_of_distinctIds hd hd'
    fun event => (hmem event).trans ((h event).trans (hmem' event).symm)]
  generalize Canonical.sorted EventEnvelope.replayCmp unique = ordered
  cases hr : reportOf codec n ordered with
  | error e =>
    rw [reportOf_error_iff.mpr (reportOf_error_iff.mp hr)]
    trivial
  | ok r =>
    cases hr' : reportOf codec n' ordered with
    | error e' =>
      rw [reportOf_error_iff.mpr (reportOf_error_iff.mp hr')] at hr
      simp at hr
    | ok r' =>
      obtain ⟨bytes, hbytes, hevents, hanomalies, hdigest⟩ := reportOf_ok hr
      obtain ⟨bytes', hbytes', hevents', hanomalies', hdigest'⟩ := reportOf_ok hr'
      obtain rfl : bytes = bytes' := by simpa [hbytes] using hbytes'
      refine ⟨⟨hevents.trans hevents'.symm, hanomalies.trans hanomalies'.symm,
        hdigest.trans hdigest'.symm⟩, ?_⟩
      rw [hanomalies, hevents, sequenceAnomalies_eq_nil_iff]
      rfl

/-- Neither the order of arrival nor exact duplicates change a replay. -/
theorem replay_arrival_independent (codec : Codec) (order order' : HashOrder)
    (events dups events' : List EventEnvelope) (hdups : ∀ event ∈ dups, event ∈ events)
    (hperm : events'.Perm (events ++ dups)) :
    SameReplay (replay codec order events) (replay codec order' events') := by
  refine sameReplay_of_mem_iff fun event => ?_
  rw [hperm.mem_iff, List.mem_append]
  exact ⟨.inl, fun h => h.elim id (hdups event)⟩

/-- A snapshot of one feed. -/
def snapshot (eventId : EventId) (time sequence : U64) : EventEnvelope where
  schemaVersion := 1
  eventId := eventId
  source := "feed-a"
  exchangeTsNs := time
  receiveTsNs := time
  sequence := some sequence
  clockUncertaintyNs := 0
  chain := none
  payload := .InventorySnapshot "USDC" ⟨sequence.val, by omega⟩

/-- The JSON of a snapshot, and the digest of the two snapshots below. -/
def snapshotCodec : Codec where
  toVec event := match event.sequence with
    | some sequence => .ok (String.toUTF8 ("\x7b\"schema_version\":1,\"event_id\":\"" ++
        event.eventId ++ "\",\"source\":\"feed-a\",\"exchange_ts_ns\":" ++
        toString event.exchangeTsNs.val ++ ",\"receive_ts_ns\":" ++
        toString event.receiveTsNs.val ++ ",\"sequence\":" ++ toString sequence.val ++
        ",\"clock_uncertainty_ns\":0,\"chain\":null,\"payload\":\x7b\"type\":" ++
        "\"inventory_snapshot\",\"asset\":\"USDC\",\"amount\":" ++
        toString sequence.val ++ "\x7d\x7d")).toList
    | none          => .error "not a snapshot"
  digest _ := "047d310797624ca8f7abd7b7fdbb81ed50e7b90a77e6725ffb924f7f0844b79f"

/-- Two snapshots, and the same two late and in the other order. -/
theorem replay_arrival_independent_snapshots :
    SameReplay
      (replay snapshotCodec ⟨id, fun _ => .refl _⟩ [snapshot "a" 20 2, snapshot "b" 10 1])
      (replay snapshotCodec ⟨List.reverse, List.reverse_perm⟩
        [snapshot "b" 10 1, snapshot "a" 20 2, snapshot "a" 20 2]) :=
  replay_arrival_independent snapshotCodec ⟨id, fun _ => .refl _⟩
    ⟨List.reverse, List.reverse_perm⟩ [snapshot "a" 20 2, snapshot "b" 10 1] [snapshot "a" 20 2]
    [snapshot "b" 10 1, snapshot "a" 20 2, snapshot "a" 20 2] (by simp) (.swap _ _ _)

end Suwappu.Searcher
