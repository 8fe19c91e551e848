import Suwappu.Execution.Store

/-!
# The store materializes its log

`materialised_of_careful`: the row of a parent order is the replay of its events, and its filled
quantity is that of its fills where these are the only ones, along every run in which no fill is
appended under a key that its parent has, or under the id of another event. `fill_counted_twice`:
the store does not see that a key was applied, which the replay does.
-/

namespace Suwappu.Execution

open Checked

/-- The events of a parent order. -/
def Store.log (s : Store) (parentOrderId : String) : List LifecycleEvent :=
  (s.events.filter fun event => event.parentOrderId = parentOrderId).map ExecutionEvent.lifecycle

/-- The fields of a parent order are those of a snapshot. -/
structure ExecutionParentOrder.Shows (parent : ExecutionParentOrder)
    (snapshot : ExecutionSnapshot) : Prop where
  state : parent.state = snapshot.state
  stateVersion : parent.stateVersion = snapshot.sequence
  filledQuantity : parent.filledQuantity = snapshot.filledQuantity
  averageFillPrice : parent.averageFillPrice = snapshot.averageFillPrice

/-- Every parent order is what the replay of its events makes of it. -/
def Materialised (s : Store) : Prop :=
  ∀ parent ∈ s.parents, ∀ requestedQuantity,
    decimalOrNone parent.requestedQuantity = .ok requestedQuantity →
      ∃ snapshot, replay parent.id (s.log parent.id) requestedQuantity = .ok snapshot ∧
        parent.Shows snapshot

/-- The quantity of a fill that was recorded. -/
def ExecutionFill.amount (fill : ExecutionFill) : ℚ :=
  match Number.ofString fill.quantity with
  | some (.finite amount) => amount
  | _                     => 0

def Store.filled (s : Store) (parentOrderId : String) : ℚ :=
  ((s.fills.filter fun fill => fill.parentOrderId = parentOrderId).map ExecutionFill.amount).sum

/-- What the parent orders have filled are their fills. -/
def FillsCounted (s : Store) : Prop :=
  ∀ parent ∈ s.parents, parent.filledQuantity = s.filled parent.id

/-- A fill that enters as an event alone. -/
def Call.EntersFill : Call → Prop
  | .appendEvent _ new => new.eventType = "fill_recorded"
  | _                  => False

/-- No fill of the parent order has that key. -/
def Store.NewKey (s : Store) (parentOrderId key : String) : Prop :=
  ∀ event ∈ s.events, event.parentOrderId = parentOrderId → event.eventType = "fill_recorded" →
    event.lifecycle.fillKey ≠ key

instance (s : Store) (parentOrderId key : String) : Decidable (s.NewKey parentOrderId key) :=
  inferInstanceAs (Decidable (∀ event ∈ s.events, _ → _ → _))

/-- A fill comes under a new key, and one that is recorded also with a new event. -/
def Careful (uuid5 : String → String) (s : Store) : Call → Prop
  | .createParent _ _              => True
  | .appendEvent parentOrderId new =>
    new.eventType = "fill_recorded" → (s.event? new.id).isSome ∨
      s.NewKey parentOrderId (new.row parentOrderId 0).lifecycle.fillKey
  | .recordFill parentOrderId new  =>
    (s.fill? (strip new.externalSource) (strip new.externalFillId)).isSome ∨
      s.NewKey parentOrderId new.key ∧
        ∀ event ∈ s.event? (new.event uuid5).id, event.parentOrderId ≠ parentOrderId

instance (uuid5 : String → String) (s : Store) : ∀ call, Decidable (Careful uuid5 s call)
  | .createParent _ _ => inferInstanceAs (Decidable True)
  | .appendEvent _ _  => inferInstanceAs (Decidable (_ → _))
  | .recordFill _ _   => inferInstanceAs (Decidable (_ ∨ _ ∧ _))

/-! ### Logs -/

variable {s s' : Store} {parent : ExecutionParentOrder} {log : List LifecycleEvent}
  {start snapshot next : ExecutionSnapshot} {event : LifecycleEvent}
  {requestedQuantity : Option Number}
  {new : NewEvent}

/-- A snapshot is the replay of a log, and holds nothing that the log does not. -/
structure Replayed (log : List LifecycleEvent) (start snapshot : ExecutionSnapshot) : Prop where
  run : log.foldlM reduceEvent start = .ok snapshot
  sorted : log.Pairwise fun a b => a.sequence ≤ b.sequence
  sequence_le : ∀ event ∈ log, event.sequence ≤ snapshot.sequence
  eventIds : ∀ id ∈ snapshot.appliedEventIds, ∃ event ∈ log, event.eventId = id
  fillKeys : ∀ key ∈ snapshot.appliedFillKeys, ∃ event ∈ log,
    event.eventType = "fill_recorded" ∧ event.fillKey = key

lemma Replayed.nil (parentOrderId : String) (requestedQuantity : Option Number) :
    Replayed [] (.new parentOrderId requestedQuantity) (.new parentOrderId requestedQuantity) :=
  ⟨rfl, .nil, nofun, nofun, nofun⟩

lemma Replayed.append (h : Replayed log start snapshot)
    (hid : event.eventId ∉ snapshot.appliedEventIds)
    (hnext : reduceEvent snapshot event = .ok next) :
    Replayed (log ++ [event]) start next := by
  obtain ⟨hsequence, hreduces⟩ := reduceEvent_reduces hid hnext
  refine ⟨?_, ?_, ?_, ?_, ?_⟩
  · rw [List.foldlM_append, h.run, ok_bind, List.foldlM_cons, hnext]
    rfl
  · refine List.pairwise_append.mpr ⟨h.sorted, List.pairwise_singleton _ _, fun a ha b hb => ?_⟩
    rw [List.mem_singleton.mp hb, hsequence]
    exact (h.sequence_le a ha).trans (Nat.le_succ _)
  · intro a ha
    rw [hreduces.sequence]
    rcases List.mem_append.mp ha with ha | ha
    · rw [hsequence]
      exact (h.sequence_le a ha).trans (Nat.le_succ _)
    · rw [List.mem_singleton.mp ha]
  · intro id hid
    rw [hreduces.appliedEventIds] at hid
    rcases Finset.mem_insert.mp hid with rfl | hid
    · exact ⟨event, List.mem_append_right _ (List.mem_singleton.mpr rfl), rfl⟩
    · obtain ⟨a, ha, rfl⟩ := h.eventIds id hid
      exact ⟨a, List.mem_append_left _ ha, rfl⟩
  · intro key hkey
    rcases hreduces.appliedFillKeys hkey with hkey | hkey
    · obtain ⟨a, ha, hfill⟩ := h.fillKeys key hkey
      exact ⟨a, List.mem_append_left _ ha, hfill⟩
    · exact ⟨event, List.mem_append_right _ (List.mem_singleton.mpr rfl), hkey⟩

/-- A log in order is replayed as it is. -/
lemma replay_of_sorted {parentOrderId : String}
    (h : log.Pairwise fun a b => a.sequence ≤ b.sequence) :
    replay parentOrderId log requestedQuantity =
      log.foldlM reduceEvent (.new parentOrderId requestedQuantity) := by
  rw [replay, h.insertionSort_eq]

lemma Replayed.replay {parentOrderId : String}
    (h : Replayed log (.new parentOrderId requestedQuantity) snapshot) :
    replay parentOrderId log requestedQuantity = .ok snapshot := by
  rw [replay_of_sorted h.sorted, h.run]

/-! ### Calls -/

lemma mem_log {id : String} : event ∈ s.log id ↔
    ∃ row ∈ s.events, row.parentOrderId = id ∧ row.lifecycle = event := by
  simp [Store.log, and_assoc]

lemma log_append {row : ExecutionEvent} (id : String) : (s.append parent row next).log id =
    s.log id ++ if row.parentOrderId = id then [row.lifecycle] else [] := by
  by_cases h : row.parentOrderId = id <;> simp [Store.log, Store.append, h]

lemma parent?_eq_some {id : String} (h : s.parent? id = some parent) :
    parent ∈ s.parents ∧ parent.id = id :=
  ⟨List.mem_of_find?_eq_some h, by simpa using List.find?_some h⟩

lemma event?_eq_none {id : String} (h : s.event? id = none) : ∀ event ∈ s.events, event.id ≠ id :=
  fun event hevent => by simpa using List.find?_eq_none.mp h event hevent

/-- An event that is appended has been reduced. -/
structure Appends (s : Store) (parentOrderId : String) (new : NewEvent) (s' : Store)
    (parent : ExecutionParentOrder) (requestedQuantity : Option Number) (next : ExecutionSnapshot) :
    Prop where
  mem : parent ∈ s.parents
  id : parent.id = parentOrderId
  fresh : ∀ event ∈ s.events, event.id ≠ new.id
  requested : decimalOrNone parent.requestedQuantity = .ok requestedQuantity
  reduces : reduceEvent (parent.snapshot requestedQuantity)
    (new.row parentOrderId (parent.stateVersion + 1)).lifecycle = .ok next
  result : s' = s.append parent (new.row parentOrderId (parent.stateVersion + 1)) next

lemma snapshotFromParent_ok (h : snapshotFromParent parent = .ok snapshot) :
    ∃ requestedQuantity, decimalOrNone parent.requestedQuantity = .ok requestedQuantity ∧
      snapshot = parent.snapshot requestedQuantity := by
  unfold snapshotFromParent at h
  cases hrequested : decimalOrNone parent.requestedQuantity with
  | error e =>
    rw [hrequested] at h
    cases h
  | ok requestedQuantity =>
    rw [hrequested] at h
    cases h
    exact ⟨requestedQuantity, rfl, rfl⟩

lemma mapError_eq_ok {ε ε' α : Type*} {x : Except ε α} {f : ε → ε'} {a : α}
    (h : x.mapError f = .ok a) : x = .ok a := by
  cases x with
  | error e => cases h
  | ok b    => cases h; rfl

/-- A call that does not raise finds the event, or appends it. -/
lemma appendEvent_cases {parentOrderId : String}
    (h : appendEvent s parentOrderId new = .ok s') :
    (s' = s ∧ ∃ event ∈ s.event? new.id, event.parentOrderId = parentOrderId) ∨
      ∃ parent requestedQuantity next,
        Appends s parentOrderId new s' parent requestedQuantity next := by
  unfold appendEvent at h
  split at h
  · cases h
  · rename_i parent hparent
    obtain ⟨hmem, rfl⟩ := parent?_eq_some hparent
    split at h
    · rename_i duplicate hduplicate
      split_ifs at h with hsame
      cases h
      exact .inl ⟨rfl, duplicate, hduplicate, hsame⟩
    · rename_i hfresh
      simp only [bind_ok_iff] at h
      obtain ⟨current, hcurrent, next, hnext, h⟩ := h
      obtain ⟨requestedQuantity, hrequested, rfl⟩ := snapshotFromParent_ok hcurrent
      cases h
      exact .inr ⟨parent, requestedQuantity, next, hmem, rfl, event?_eq_none hfresh, hrequested,
        mapError_eq_ok hnext, rfl⟩

variable {uuid5 : String → String} {parentOrderId : String} {fill : NewFill}

/-- The row of a new fill. -/
def NewFill.row (fill : NewFill) (parentOrderId : String) : ExecutionFill :=
  ⟨fill.uuid, parentOrderId, strip fill.externalSource, strip fill.externalFillId, fill.quantity,
    fill.price⟩

lemma recordFill_cases (h : recordFill uuid5 s parentOrderId fill = .ok s') :
    s' = s ∨ s.fill? (strip fill.externalSource) (strip fill.externalFillId) = none ∧
      (∃ parent ∈ s.parents, parent.id = parentOrderId) ∧
        appendEvent { s with fills := s.fills ++ [fill.row parentOrderId] } parentOrderId
          (fill.event uuid5) = .ok s' := by
  unfold recordFill at h
  dsimp only at h
  split_ifs at h with hempty
  split at h
  · cases h
  · rename_i parent hparent
    obtain ⟨hmem, rfl⟩ := parent?_eq_some hparent
    split at h
    · split_ifs at h
      cases h
      exact .inl rfl
    · rename_i hnone
      exact .inr ⟨hnone, ⟨parent, hmem, rfl⟩, h⟩

/-! ### The invariant -/

/-- The rows are about parents that exist, and a parent is the replay of its log. -/
structure Sound (s : Store) : Prop where
  parents : (s.parents.map ExecutionParentOrder.id).Nodup
  events : ∀ event ∈ s.events, ∃ parent ∈ s.parents, parent.id = event.parentOrderId
  fills : ∀ fill ∈ s.fills, ∃ parent ∈ s.parents, parent.id = fill.parentOrderId
  replayed : ∀ parent ∈ s.parents, ∀ requestedQuantity,
    decimalOrNone parent.requestedQuantity = .ok requestedQuantity → ∃ snapshot,
      Replayed (s.log parent.id) (.new parent.id requestedQuantity) snapshot ∧
        snapshot.materialised = parent.snapshot requestedQuantity

lemma Sound.materialised (h : Sound s) : Materialised s := by
  intro parent hparent requestedQuantity hrequested
  obtain ⟨snapshot, hreplayed, hshows⟩ := h.replayed parent hparent _ hrequested
  refine ⟨snapshot, hreplayed.replay, ?_, ?_, ?_, ?_⟩
  · exact (congrArg ExecutionSnapshot.state hshows).symm
  · exact (congrArg ExecutionSnapshot.sequence hshows).symm
  · exact (congrArg ExecutionSnapshot.filledQuantity hshows).symm
  · exact (congrArg ExecutionSnapshot.averageFillPrice hshows).symm

/-- What the reducer does to the fields of a parent, it does to the replay of its log. -/
lemma exists_reduceEvent (hshows : snapshot.materialised = parent.snapshot requestedQuantity)
    (hid : event.eventId ∉ snapshot.appliedEventIds)
    (hkey : event.eventType = "fill_recorded" → event.fillKey ∉ snapshot.appliedFillKeys)
    (hnext : reduceEvent (parent.snapshot requestedQuantity) event = .ok next) :
    ∃ after, reduceEvent snapshot event = .ok after ∧ after.materialised = next.materialised := by
  have hboth := reduceEvent_materialised hid hkey
  rw [hshows, hnext] at hboth
  cases hafter : reduceEvent snapshot event with
  | error e =>
    rw [hafter] at hboth
    cases hboth
  | ok after =>
    rw [hafter] at hboth
    exact ⟨after, rfl, (Except.ok.inj hboth).symm⟩

lemma write_snapshot (hnext : reduceEvent (parent.snapshot requestedQuantity) event = .ok next) :
    (parent.write next).snapshot requestedQuantity = next.materialised := by
  obtain ⟨-, hreduces⟩ := reduceEvent_reduces (Finset.notMem_empty _) hnext
  have hid := hreduces.parentOrderId
  have hrequested := hreduces.requestedQuantity
  cases next
  cases hid
  cases hrequested
  rfl

/-- An event under a new id, and under a new key if it is a fill. -/
lemma Sound.append (h : Sound s)
    (happends : Appends s parentOrderId new s' parent requestedQuantity next)
    (hkey : new.eventType = "fill_recorded" →
      s.NewKey parentOrderId (new.row parentOrderId 0).lifecycle.fillKey) : Sound s' := by
  obtain ⟨hmem, rfl, hfresh, hrequested, hnext, rfl⟩ := happends
  have hids : ∀ other : ExecutionParentOrder,
      (if other.id = parent.id then parent.write next else other).id = other.id := by
    intro other
    split_ifs with hother
    · exact hother.symm
    · rfl
  have hparents : (s.append parent (new.row parent.id (parent.stateVersion + 1)) next).parents.map
      ExecutionParentOrder.id = s.parents.map ExecutionParentOrder.id := by
    rw [Store.append, List.map_map]
    exact List.map_congr_left fun other _ => hids other
  have howned : ∀ id, (∃ other ∈ s.parents, other.id = id) → ∃ other ∈
      (s.append parent (new.row parent.id (parent.stateVersion + 1)) next).parents,
        other.id = id := by
    rintro id ⟨other, hother, rfl⟩
    exact ⟨_, List.mem_map.mpr ⟨other, hother, rfl⟩, hids other⟩
  refine ⟨hparents ▸ h.parents, fun event hevent => howned _ ?_,
    fun fill hfill => howned _ (h.fills fill hfill), ?_⟩
  · rcases List.mem_append.mp hevent with hevent | hevent
    · exact h.events event hevent
    · rw [List.mem_singleton.mp hevent]
      exact ⟨parent, hmem, rfl⟩
  · intro written hwritten
    obtain ⟨other, hother, rfl⟩ := List.mem_map.mp hwritten
    intro requestedQuantity' hrequested'
    rw [hids, log_append]
    by_cases hsame : other.id = parent.id
    · -- parents with one id are one
      obtain rfl := List.inj_on_of_nodup_map h.parents hother hmem hsame
      rw [if_pos rfl] at hrequested' ⊢
      obtain rfl := Except.ok.inj (hrequested.symm.trans hrequested')
      obtain ⟨snapshot, hreplayed, hshows⟩ := h.replayed other hother _ hrequested
      have hid : new.id ∉ snapshot.appliedEventIds := by
        intro hid
        obtain ⟨event, hevent, hevent'⟩ := hreplayed.eventIds _ hid
        obtain ⟨row, hrow, -, rfl⟩ := mem_log.mp hevent
        exact hfresh row hrow hevent'
      obtain ⟨after, hafter, hsnapshot⟩ := exists_reduceEvent hshows hid (fun hfill hmem => by
        obtain ⟨event, hevent, hevent', hsamekey⟩ := hreplayed.fillKeys _ hmem
        obtain ⟨row, hrow, hrow', rfl⟩ := mem_log.mp hevent
        exact hkey hfill row hrow hrow' hevent' hsamekey) hnext
      refine ⟨after, ?_, ?_⟩
      · rw [if_pos
          (show (new.row other.id (other.stateVersion + 1)).parentOrderId = other.id from rfl)]
        exact hreplayed.append hid hafter
      · rw [hsnapshot, write_snapshot hnext]
    · rw [if_neg hsame] at hrequested' ⊢
      have hrow : (new.row parent.id (parent.stateVersion + 1)).parentOrderId ≠ other.id :=
        fun h => hsame h.symm
      rw [if_neg hrow, List.append_nil]
      exact h.replayed other hother _ hrequested'

lemma Sound.addFill {row : ExecutionFill} (h : Sound s)
    (hparent : ∃ parent ∈ s.parents, parent.id = row.parentOrderId) :
    Sound { s with fills := s.fills ++ [row] } := by
  refine ⟨h.parents, h.events, fun fill hfill => ?_, h.replayed⟩
  rcases List.mem_append.mp hfill with hfill | hfill
  · exact h.fills fill hfill
  · rw [List.mem_singleton.mp hfill]
    exact hparent

lemma parent?_isSome {id : String} :
    (s.parent? id).isSome ↔ ∃ parent ∈ s.parents, parent.id = id := by
  simp [Store.parent?, List.find?_isSome]

lemma Sound.create {id : String} {quantity : Option String} (h : Sound s)
    (hcreate : createParent s id quantity = .ok s') :
    Sound s' ∧ (FillsCounted s → FillsCounted s') := by
  unfold createParent at hcreate
  split_ifs at hcreate with hsome
  cases hcreate
  have hnew : ∀ parent ∈ s.parents, parent.id ≠ id :=
    fun parent hparent hid => hsome (parent?_isSome.mpr ⟨parent, hparent, hid⟩)
  have hlog : s.log id = [] := by
    refine List.map_eq_nil_iff.mpr (List.filter_eq_nil_iff.mpr fun event hevent => ?_)
    obtain ⟨parent, hparent, hid⟩ := h.events event hevent
    simpa using hid ▸ hnew parent hparent
  have hfilled : s.filled id = 0 := by
    rw [Store.filled, List.filter_eq_nil_iff.mpr]
    · rfl
    · intro fill hfill
      obtain ⟨parent, hparent, hid⟩ := h.fills fill hfill
      simpa using hid ▸ hnew parent hparent
  refine ⟨⟨?_, fun event hevent => ?_, fun fill hfill => ?_, fun parent hparent => ?_⟩,
    fun hcounted parent hparent => ?_⟩
  · rw [List.map_append]
    refine List.nodup_append'.mpr ⟨h.parents, List.nodup_singleton _, fun a ha ha' => ?_⟩
    obtain ⟨parent, hparent, rfl⟩ := List.mem_map.mp ha
    exact hnew parent hparent (List.mem_singleton.mp ha')
  · obtain ⟨parent, hparent, hid⟩ := h.events event hevent
    exact ⟨parent, List.mem_append_left _ hparent, hid⟩
  · obtain ⟨parent, hparent, hid⟩ := h.fills fill hfill
    exact ⟨parent, List.mem_append_left _ hparent, hid⟩
  · rcases List.mem_append.mp hparent with hparent | hparent
    · exact h.replayed parent hparent
    · rw [List.mem_singleton.mp hparent]
      intro requestedQuantity _
      refine ⟨.new id requestedQuantity, ?_, rfl⟩
      have hnil := Replayed.nil id requestedQuantity
      rwa [← hlog] at hnil
  · rcases List.mem_append.mp hparent with hparent | hparent
    · exact hcounted parent hparent
    · rw [List.mem_singleton.mp hparent]
      exact hfilled.symm

/-! ### Fills -/

lemma fillKey_event (n : ℕ) :
    ((fill.event uuid5).row parentOrderId n).lifecycle.fillKey = fill.key := by
  have hkey : fill.key ≠ "" := by
    simp [NewFill.key]
  simp [NewFill.event, NewEvent.row, ExecutionEvent.lifecycle, LifecycleEvent.fillKey, Payload.get,
    Value.truthy, Value.text, hkey]

/-- What an event leaves of the filled quantity. -/
lemma filledQuantity_of_event
    (happends : Appends s parentOrderId new s' parent requestedQuantity next)
    (htype : new.eventType ≠ "fill_recorded") : next.filledQuantity = parent.filledQuantity := by
  obtain ⟨-, hreduces⟩ := reduceEvent_reduces (Finset.notMem_empty _) happends.reduces
  cases hreduces with
  | state => rfl
  | fill _ _ _ hfill => exact absurd hfill htype

/-- What the event of a fill adds to it. -/
lemma filledQuantity_of_fill
    (happends : Appends s parentOrderId (fill.event uuid5) s' parent requestedQuantity next) :
    next.filledQuantity = parent.filledQuantity + (fill.row parentOrderId).amount := by
  obtain ⟨-, hreduces⟩ := reduceEvent_reduces (Finset.notMem_empty _) happends.reduces
  cases hreduces with
  | state _ hfill => exact absurd (hfill rfl) (Finset.notMem_empty _)
  | fill quantity _ _ _ _ hquantity =>
    refine congrArg (parent.filledQuantity + ·) ?_
    have htext : positiveDecimal (.str fill.quantity) = .ok quantity := hquantity
    unfold positiveDecimal at htext
    simp only [NewFill.row, ExecutionFill.amount]
    split at htext
    · rename_i parsed hparsed
      split_ifs at htext
      cases htext
      rw [show Number.ofString fill.quantity = _ from hparsed]
    · cases htext

lemma filled_addFill (row : ExecutionFill) (id : String) :
    Store.filled { s with fills := s.fills ++ [row] } id =
      s.filled id + if row.parentOrderId = id then row.amount else 0 := by
  by_cases h : row.parentOrderId = id <;> simp [Store.filled, h]

lemma FillsCounted.append (happends : Appends s parentOrderId new s' parent requestedQuantity next)
    (hparent : next.filledQuantity = s.filled parentOrderId)
    (hothers : ∀ other ∈ s.parents, other.id ≠ parentOrderId →
      other.filledQuantity = s.filled other.id) : FillsCounted s' := by
  obtain ⟨-, rfl, -, -, -, rfl⟩ := happends
  intro written hwritten
  obtain ⟨other, hother, rfl⟩ := List.mem_map.mp hwritten
  split_ifs with hsame
  · exact hparent
  · exact hothers other hother hsame

/-! ### Runs -/

theorem step_sound {call : Call} (h : Sound s) (hcareful : Careful uuid5 s call)
    (hstep : step uuid5 s call = .ok s') : Sound s' := by
  cases call with
  | createParent id quantity => exact (h.create hstep).1
  | appendEvent id new =>
    rcases appendEvent_cases hstep with ⟨rfl, -⟩ | ⟨parent, requestedQuantity, next, happends⟩
    · exact h
    · refine h.append happends fun hfill => (hcareful hfill).resolve_left fun hsome => ?_
      obtain ⟨event, hevent⟩ := Option.isSome_iff_exists.mp hsome
      exact happends.fresh event (List.mem_of_find?_eq_some hevent)
        (by simpa using List.find?_some hevent)
  | recordFill id fill =>
    rcases recordFill_cases hstep with rfl | ⟨hnone, hparent, hstep⟩
    · exact h
    · have hadd : Sound { s with fills := s.fills ++ [fill.row id] } := h.addFill hparent
      rcases appendEvent_cases hstep with ⟨rfl, -⟩ | ⟨parent, requestedQuantity, next, happends⟩
      · exact hadd
      · refine hadd.append happends fun _ => ?_
        rw [fillKey_event]
        exact (hcareful.resolve_left (by rw [hnone]; exact Bool.false_ne_true)).1

theorem step_counted {call : Call} (h : Sound s) (hcounted : FillsCounted s)
    (hcareful : Careful uuid5 s call) (hcall : ¬ call.EntersFill)
    (hstep : step uuid5 s call = .ok s') : FillsCounted s' := by
  cases call with
  | createParent id quantity => exact (h.create hstep).2 hcounted
  | appendEvent id new =>
    rcases appendEvent_cases hstep with ⟨rfl, -⟩ | ⟨parent, requestedQuantity, next, happends⟩
    · exact hcounted
    · refine .append happends ?_ fun other hother _ => hcounted other hother
      rw [filledQuantity_of_event happends hcall, ← happends.id]
      exact hcounted parent happends.mem
  | recordFill id fill =>
    rcases recordFill_cases hstep with rfl | ⟨hnone, -, hstep⟩
    · exact hcounted
    · obtain ⟨-, hevent⟩ := hcareful.resolve_left (by rw [hnone]; exact Bool.false_ne_true)
      rcases appendEvent_cases hstep with ⟨-, event, hmem, hid⟩ | ⟨parent, _, next, happends⟩
      · exact absurd hid (hevent event hmem)
      · refine .append happends ?_ fun other hother hne => ?_
        · have hrow : (fill.row id).parentOrderId = id := rfl
          rw [filledQuantity_of_fill happends, filled_addFill, if_pos hrow]
          refine congrArg (· + _) ?_
          rw [← happends.id]
          exact hcounted parent happends.mem
        · rw [filled_addFill, if_neg fun heq => hne heq.symm, add_zero]
          exact hcounted other hother

lemma init_sound : Sound .init := ⟨List.nodup_nil, nofun, nofun, nofun⟩

/-- Along a run in which fills come under new keys and with new events. -/
theorem materialised_of_careful (uuid5 : String → String) (calls : List Call)
    (hcareful : (machine uuid5).Along (Careful uuid5) .init calls) :
    Materialised ((machine uuid5).run .init calls) ∧
      ((∀ call ∈ calls, ¬ call.EntersFill) → FillsCounted ((machine uuid5).run .init calls)) := by
  have hsound : ∀ s call s', Sound s → Careful uuid5 s call → (machine uuid5).step s call = .ok s' →
      Sound s' := fun _ _ _ h hcareful hstep => step_sound h hcareful hstep
  refine ⟨(Machine.run_induction_along hsound calls init_sound hcareful).materialised,
    fun hcalls => ?_⟩
  have hinit : Sound .init ∧ FillsCounted .init := ⟨init_sound, nofun⟩
  exact (Machine.run_induction_along (I := fun s => Sound s ∧ FillsCounted s)
    (fun s call s' h hcall hstep => ⟨hsound s call s' h.1 hcall.1 hstep,
      step_counted h.1 h.2 hcall.1 hcall.2 hstep⟩)
    calls hinit (hcareful.and_forall hcalls)).2

/-- A parent order of ten that is active. -/
def active : List Call :=
  .createParent "p" (some "10") ::
    [("e1", ParentState.quoting), ("e2", .ready), ("e3", .active)].map fun (id, state) =>
      .appendEvent "p" ⟨"parent_state_changed", some id, "", [], none, some state⟩

/-- The same fill from two observers. -/
def twice : List Call :=
  ["e4", "e5"].map fun id => .appendEvent "p" ⟨"fill_recorded", some id, "",
    [("fill_key", .str "lifi:0xabc:0"), ("quantity", .str "4"), ("price", .str "100")], none, none⟩

/-- Recorded twice, the fill counts once. -/
theorem record_fill_materialised :
    let calls := active ++ List.replicate 2 (.recordFill "p" ⟨"lifi", "0xabc:0", "4", "100", "f"⟩)
    Materialised ((machine fun _ => "baa66e36-6394-5be8-b9ea-ad7460bd6b51").run .init calls) ∧
      ((∀ call ∈ calls, ¬ call.EntersFill) →
        FillsCounted ((machine fun _ => "baa66e36-6394-5be8-b9ea-ad7460bd6b51").run .init calls)) :=
  materialised_of_careful _ _ (by decide +kernel)

/-- Appended under two event ids, it counts twice, and once in the replay. -/
theorem fill_counted_twice : ¬ ∀ (uuid5 : String → String) (calls : List Call),
    Materialised ((machine uuid5).run .init calls) := by
  intro h
  have hrow : ∃ parent ∈ ((machine fun _ => "").run .init (active ++ twice)).parents,
      parent.id = "p" ∧ decimalOrNone parent.requestedQuantity = .ok (some (.finite 10)) ∧
        parent.filledQuantity = 8 := by decide +kernel
  have hsorted : (((machine fun _ => "").run .init (active ++ twice)).log "p").Pairwise
      fun a b => a.sequence ≤ b.sequence := by decide +kernel
  have hreplay : ((((machine fun _ => "").run .init (active ++ twice)).log "p").foldlM
      reduceEvent (.new "p" (some (.finite 10)))).map ExecutionSnapshot.filledQuantity = .ok 4 := by
    decide +kernel
  obtain ⟨parent, hparent, hid, hrequested, hfilled⟩ := hrow
  obtain ⟨snapshot, hsnapshot, hshows⟩ := h _ _ parent hparent _ hrequested
  rw [hid, replay_of_sorted hsorted] at hsnapshot
  rw [hsnapshot] at hreplay
  have height := hshows.filledQuantity.symm.trans hfilled
  exact absurd (height.symm.trans (Except.ok.inj hreplay)) (by norm_num)

end Suwappu.Execution
