import Mathlib
import Suwappu.Searcher.Events

/-!
# The opportunity graph

`RouteGraph` stores the venue edges by id and, for every asset, the ids of the edges that leave it.
An upsert may point an edge to other assets. A route snapshot keeps the versions its edges had, and
is fresh while no edge of the route has been upserted since.
-/

namespace Suwappu.Searcher

open Std

abbrev AssetId := String
abbrev EdgeId := String

structure VenueEdge where
  id : EdgeId
  venue : VenueId
  fromAsset : AssetId
  toAsset : AssetId
  stateVersion : U64
  fixedActivationCostQuote : Fixed
  minInput : Fixed
  maxInput : Fixed
deriving DecidableEq

structure RouteSnapshot where
  edges : List (EdgeId × U64)
deriving DecidableEq

structure RouteGraph where
  edges : TreeMap EdgeId VenueEdge
  outgoing : TreeMap AssetId (TreeSet EdgeId)

def RouteGraph.default : RouteGraph := ⟨∅, ∅⟩

inductive GraphError where
  | InvalidBounds | NegativeActivationCost | StaleVersion | UnknownEdge | InvalidDepth
deriving DecidableEq

namespace RouteGraph

/-- The index without an edge that left `asset`. -/
def unlink (g : RouteGraph) (asset : AssetId) (id : EdgeId) : RouteGraph :=
  { g with outgoing := g.outgoing.modify asset (·.erase id) }

/-- The edge in the index and in the map. -/
def link (g : RouteGraph) (edge : VenueEdge) : RouteGraph where
  edges := g.edges.insert edge.id edge
  outgoing := g.outgoing.alter edge.fromAsset fun ids => some ((ids.getD ∅).insert edge.id)

/-- The affected assets or the error, with the graph it leaves behind. -/
def upsertEdge (g : RouteGraph) (edge : VenueEdge) :
    RouteGraph × Except GraphError (TreeSet AssetId) :=
  if edge.minInput.val < 0 ∨ edge.maxInput.val < edge.minInput.val then (g, .error .InvalidBounds)
  else if edge.fixedActivationCostQuote.val < 0 then (g, .error .NegativeActivationCost)
  else
    let affected : TreeSet AssetId := TreeSet.ofList [edge.fromAsset, edge.toAsset]
    match g.edges[edge.id]? with
    | none          => (g.link edge, .ok affected)
    | some previous =>
      if edge.stateVersion ≤ previous.stateVersion then (g, .error .StaleVersion)
      else
        let affected := (affected.insert previous.fromAsset).insert previous.toAsset
        ((g.unlink previous.fromAsset edge.id).link edge, .ok affected)

def edge (g : RouteGraph) (id : EdgeId) : Option VenueEdge := g.edges[id]?

/-- The method `outgoing`. -/
def outgoingEdges (g : RouteGraph) (asset : AssetId) : List VenueEdge :=
  match g.outgoing[asset]? with
  | some ids => ids.toList.filterMap g.edge
  | none     => []

/-- The entry of one edge in a snapshot. -/
def snapshotEntry (g : RouteGraph) (id : EdgeId) : Except GraphError (EdgeId × U64) :=
  match g.edges[id]? with
  | some edge => .ok (id, edge.stateVersion)
  | none      => .error .UnknownEdge

def snapshot (g : RouteGraph) (route : List EdgeId) : Except GraphError RouteSnapshot := do
  let edges ← route.mapM g.snapshotEntry
  return ⟨edges⟩

def isFresh (g : RouteGraph) (snapshot : RouteSnapshot) : Bool :=
  snapshot.edges.all fun (id, version) =>
    match g.edges[id]? with
    | some edge => edge.stateVersion = version
    | none      => false

/-- The graph after upserts, accepted or rejected. -/
def upserts (g : RouteGraph) (edges : List VenueEdge) : RouteGraph :=
  edges.foldl (fun g edge => (g.upsertEdge edge).1) g

/-! ### One upsert -/

variable {g g' : RouteGraph} {edge : VenueEdge} {asset : AssetId} {id : EdgeId}

/-- The index lists the edge under the asset. -/
def Leaves (g : RouteGraph) (asset : AssetId) (id : EdgeId) : Prop :=
  ∃ ids, g.outgoing[asset]? = some ids ∧ id ∈ ids

lemma edge_link : (g.link edge).edge id = if edge.id = id then some edge else g.edge id := by
  simp only [RouteGraph.edge, link, TreeMap.getElem?_insert, LawfulEqCmp.compare_eq_iff_eq]

lemma leaves_link : (g.link edge).Leaves asset id ↔
    (edge.fromAsset = asset ∧ edge.id = id) ∨ g.Leaves asset id := by
  simp only [Leaves, link, TreeMap.getElem?_alter, LawfulEqCmp.compare_eq_iff_eq]
  by_cases hasset : edge.fromAsset = asset
  · subst hasset
    cases hids : g.outgoing[edge.fromAsset]? with
    | none => simp
    | some ids => simp
  · rw [if_neg hasset]
    exact (or_iff_right fun h => hasset h.1).symm

lemma leaves_unlink {asset' : AssetId} {id' : EdgeId} : (g.unlink asset' id').Leaves asset id ↔
    g.Leaves asset id ∧ ¬ (asset' = asset ∧ id' = id) := by
  simp only [Leaves, unlink, TreeMap.getElem?_modify, LawfulEqCmp.compare_eq_iff_eq]
  by_cases hasset : asset' = asset
  · subst hasset
    cases hids : g.outgoing[asset']? with
    | none => simp
    | some ids => simp [and_comm]
  · rw [if_neg hasset]
    exact (and_iff_left fun h => hasset h.1).symm

/-- What an accepted upsert does. -/
structure Upserted (g : RouteGraph) (edge : VenueEdge) (g' : RouteGraph) : Prop where
  newer : ∀ previous, g.edge edge.id = some previous →
    previous.stateVersion < edge.stateVersion
  edges : ∀ id, g'.edge id = if edge.id = id then some edge else g.edge id
  leaves : ∀ asset id, g'.Leaves asset id ↔ (edge.fromAsset = asset ∧ edge.id = id) ∨
    g.Leaves asset id ∧
      ∀ previous, g.edge edge.id = some previous → ¬ (previous.fromAsset = asset ∧ edge.id = id)

/-- An upsert is rejected and changes nothing, or it is accepted. -/
lemma upsertEdge_cases (g : RouteGraph) (edge : VenueEdge) :
    (∃ e, g.upsertEdge edge = (g, .error e)) ∨
      ∃ g' affected, g.upsertEdge edge = (g', .ok affected) ∧ g.Upserted edge g' := by
  unfold upsertEdge
  split
  · exact .inl ⟨_, rfl⟩
  split
  · exact .inl ⟨_, rfl⟩
  have hedge : g.edge edge.id = g.edges[edge.id]? := rfl
  cases hprevious : g.edges[edge.id]? with
  | none =>
    rw [hprevious] at hedge
    refine .inr ⟨_, _, rfl, ⟨by simp [hedge], fun _ => edge_link, fun asset id => ?_⟩⟩
    rw [leaves_link]
    simp [hedge]
  | some previous =>
    rw [hprevious] at hedge
    dsimp only
    split
    · exact .inl ⟨_, rfl⟩
    · rename_i hnewer
      refine .inr ⟨_, _, rfl, ⟨?_, fun _ => edge_link, fun asset id => ?_⟩⟩
      · intro previous' h
        rw [hedge, Option.some.injEq] at h
        exact h ▸ lt_of_not_ge hnewer
      · rw [leaves_link, leaves_unlink]
        simp [hedge]

/-! ### The index -/

/-- Edges are stored under their ids and indexed under the asset they leave. -/
structure Indexed (g : RouteGraph) : Prop where
  ids : ∀ id edge, g.edge id = some edge → edge.id = id
  leaves : ∀ asset id, g.Leaves asset id ↔ ∃ edge, g.edge id = some edge ∧ edge.fromAsset = asset

lemma indexed_default : default.Indexed where
  ids id edge h := by simp [RouteGraph.edge, default] at h
  leaves asset id := by simp [RouteGraph.edge, Leaves, default]

/-- The old entry of an edge goes, wherever the new one leads. -/
lemma Upserted.indexed (h : g.Upserted edge g') (hg : g.Indexed) : g'.Indexed where
  ids id edge' hedge := by
    rw [h.edges] at hedge
    split at hedge
    · rename_i heq
      rw [Option.some.injEq] at hedge
      rw [← hedge, heq]
    · exact hg.ids id edge' hedge
  leaves asset id := by
    rw [h.leaves, h.edges, hg.leaves]
    split
    · rename_i heq
      subst heq
      constructor
      · rintro (⟨rfl, -⟩ | ⟨⟨previous, hprevious, rfl⟩, hgone⟩)
        · exact ⟨edge, rfl, rfl⟩
        · exact absurd ⟨rfl, rfl⟩ (hgone previous hprevious)
      · rintro ⟨edge', hedge, rfl⟩
        rw [Option.some.injEq] at hedge
        exact .inl ⟨by rw [hedge], rfl⟩
    · rename_i hne
      constructor
      · rintro (⟨-, rfl⟩ | ⟨hleaves, -⟩)
        · exact absurd rfl hne
        · exact hleaves
      · exact fun hleaves => .inr ⟨hleaves, fun _ _ hid => hne hid.2⟩

lemma upserts_cons (g : RouteGraph) (edge : VenueEdge) (later : List VenueEdge) :
    g.upserts (edge :: later) = (g.upsertEdge edge).1.upserts later := rfl

lemma upserts_append (g : RouteGraph) (before later : List VenueEdge) :
    g.upserts (before ++ later) = (g.upserts before).upserts later := List.foldl_append

lemma Indexed.upserts (hg : g.Indexed) (later : List VenueEdge) : (g.upserts later).Indexed := by
  induction later generalizing g with
  | nil => exact hg
  | cons edge later ih =>
    rw [upserts_cons]
    rcases g.upsertEdge_cases edge with ⟨e, h⟩ | ⟨g', affected, h, hupserted⟩
    · rw [h]
      exact ih hg
    · rw [h]
      exact ih (hupserted.indexed hg)

lemma Indexed.mem_outgoingEdges (hg : g.Indexed) :
    edge ∈ g.outgoingEdges asset ↔ g.edge edge.id = some edge ∧ edge.fromAsset = asset := by
  have hmem : edge ∈ g.outgoingEdges asset ↔ ∃ id, g.Leaves asset id ∧ g.edge id = some edge := by
    unfold outgoingEdges Leaves
    cases g.outgoing[asset]? with
    | none => simp
    | some ids => simp
  rw [hmem]
  constructor
  · rintro ⟨id, hleaves, hedge⟩
    obtain ⟨edge', hedge', hasset⟩ := (hg.leaves asset id).mp hleaves
    rw [hedge, Option.some.injEq] at hedge'
    subst hedge'
    rw [hg.ids id edge hedge]
    exact ⟨hedge, hasset⟩
  · rintro ⟨hedge, hasset⟩
    exact ⟨edge.id, (hg.leaves asset edge.id).mpr ⟨edge, hedge, hasset⟩, hedge⟩

lemma Indexed.nodup_outgoingEdges (hg : g.Indexed) :
    ((g.outgoingEdges asset).map (·.id)).Nodup := by
  unfold outgoingEdges
  cases g.outgoing[asset]? with
  | none => exact List.nodup_nil
  | some ids =>
    refine List.pairwise_map.mpr (List.pairwise_filterMap.mpr
      (TreeSet.distinct_toList.imp fun {a b} hne edge hedge edge' hedge' heq => hne ?_))
    rw [hg.ids a edge hedge, hg.ids b edge' hedge'] at heq
    exact LawfulEqCmp.compare_eq_iff_eq.mpr heq

/-! ### Freshness -/

/-- The upsert of the edge would be accepted. -/
def Accepts (g : RouteGraph) (edge : VenueEdge) : Prop :=
  ∃ affected, (g.upsertEdge edge).2 = .ok affected

/-- One of the upserts, made in its turn, has been accepted for the edge. -/
def UpsertedSince (g : RouteGraph) (later : List VenueEdge) (id : EdgeId) : Prop :=
  ∃ before edge after, later = before ++ edge :: after ∧ edge.id = id ∧
    (g.upserts before).Accepts edge

lemma Accepts.upserted (h : g.Accepts edge) : g.Upserted edge (g.upsertEdge edge).1 := by
  obtain ⟨affected, h⟩ := h
  rcases g.upsertEdge_cases edge with ⟨e, h'⟩ | ⟨g', affected', h', hupserted⟩
  · simp [h'] at h
  · rw [h']
    exact hupserted

lemma upsertEdge_of_not_accepts (h : ¬ g.Accepts edge) : (g.upsertEdge edge).1 = g := by
  rcases g.upsertEdge_cases edge with ⟨e, h'⟩ | ⟨g', affected, h', -⟩
  · rw [h']
  · exact absurd ⟨affected, by rw [h']⟩ h

lemma upsertedSince_cons {later : List VenueEdge} : g.UpsertedSince (edge :: later) id ↔
    (edge.id = id ∧ g.Accepts edge) ∨ (g.upsertEdge edge).1.UpsertedSince later id := by
  constructor
  · rintro ⟨before, edge', after, heq, hid, haccepts⟩
    cases before with
    | nil =>
      obtain ⟨rfl, rfl⟩ := List.cons.inj heq
      exact .inl ⟨hid, haccepts⟩
    | cons edge'' before =>
      obtain ⟨rfl, rfl⟩ := List.cons.inj heq
      exact .inr ⟨before, edge', after, rfl, hid, haccepts⟩
  · rintro (⟨hid, haccepts⟩ | ⟨before, edge', after, rfl, hid, haccepts⟩)
    · exact ⟨[], edge, later, rfl, hid, haccepts⟩
    · exact ⟨edge :: before, edge', after, rfl, hid, haccepts⟩

/-- The version of a stored edge stays while the edge is not upserted, and grows when it is. -/
lemma version_upserts (later : List VenueEdge) (hedge : g.edge id = some edge) :
    ∃ edge', (g.upserts later).edge id = some edge' ∧
      edge.stateVersion ≤ edge'.stateVersion ∧
      (edge'.stateVersion = edge.stateVersion ↔ ¬ g.UpsertedSince later id) := by
  induction later generalizing g edge with
  | nil => exact ⟨edge, hedge, le_rfl, by simp [UpsertedSince]⟩
  | cons update later ih =>
    rw [upserts_cons, upsertedSince_cons]
    by_cases haccepts : g.Accepts update
    · have hupserted := haccepts.upserted
      have hstored := hupserted.edges id
      by_cases hid : update.id = id
      · rw [if_pos hid] at hstored
        obtain ⟨edge', hedge', hle, -⟩ := ih hstored
        have hlt : edge.stateVersion < edge'.stateVersion :=
          (hupserted.newer edge (hid ▸ hedge)).trans_le hle
        exact ⟨edge', hedge', hlt.le, iff_of_false hlt.ne' fun h => h (.inl ⟨hid, haccepts⟩)⟩
      · rw [if_neg hid] at hstored
        obtain ⟨edge', hedge', hle, hiff⟩ := ih (hstored.trans hedge)
        exact ⟨edge', hedge', hle, by rw [hiff, or_iff_right fun h => hid h.1]⟩
    · rw [upsertEdge_of_not_accepts haccepts]
      obtain ⟨edge', hedge', hle, hiff⟩ := ih hedge
      exact ⟨edge', hedge', hle, by rw [hiff, or_iff_right fun h => haccepts h.2]⟩

/-- What a snapshot holds of the edge. -/
def Stored (g : RouteGraph) (id : EdgeId) (entry : EdgeId × U64) : Prop :=
  ∃ edge, g.edge id = some edge ∧ entry = (id, edge.stateVersion)

lemma snapshotEntry_ok {entry : EdgeId × U64} (h : g.snapshotEntry id = .ok entry) :
    g.Stored id entry := by
  unfold snapshotEntry at h
  cases hedge : g.edges[id]? with
  | none => simp [hedge] at h
  | some edge =>
    rw [hedge] at h
    exact ⟨edge, hedge, (Except.ok.inj h).symm⟩

lemma mapM_snapshotEntry_ok {route : List EdgeId} {entries : List (EdgeId × U64)}
    (h : route.mapM g.snapshotEntry = .ok entries) : List.Forall₂ g.Stored route entries := by
  induction route generalizing entries with
  | nil =>
    rw [List.mapM_nil] at h
    exact Except.ok.inj h ▸ .nil
  | cons id route ih =>
    rw [List.mapM_cons] at h
    cases hentry : g.snapshotEntry id with
    | error e => simp [hentry] at h
    | ok entry =>
      cases hentries : route.mapM g.snapshotEntry with
      | error e => simp [hentry, hentries] at h
      | ok entries' =>
        rw [hentry, hentries] at h
        exact Except.ok.inj h ▸ .cons (snapshotEntry_ok hentry) (ih hentries)

lemma snapshot_ok {route : List EdgeId} {snapshot : RouteSnapshot}
    (h : g.snapshot route = .ok snapshot) : List.Forall₂ g.Stored route snapshot.edges := by
  unfold RouteGraph.snapshot at h
  cases hentries : route.mapM g.snapshotEntry with
  | error e => simp [hentries] at h
  | ok entries =>
    rw [hentries] at h
    exact Except.ok.inj h ▸ mapM_snapshotEntry_ok hentries

/-- A snapshot is up to date just in case no edge of its route has been upserted since. -/
lemma isFresh_iff {route : List EdgeId} {entries : List (EdgeId × U64)} {later : List VenueEdge}
    (h : List.Forall₂ g.Stored route entries) :
    (g.upserts later).isFresh ⟨entries⟩ = true ↔ ∀ id ∈ route, ¬ g.UpsertedSince later id := by
  unfold isFresh
  induction h with
  | nil => simp
  | cons hentry _ ih =>
    obtain ⟨edge, hedge, rfl⟩ := hentry
    obtain ⟨edge', hedge', -, hiff⟩ := version_upserts later hedge
    have hlater : (g.upserts later).edges[_]? = some edge' := hedge'
    rw [List.all_cons, Bool.and_eq_true, List.forall_mem_cons]
    dsimp only
    rw [hlater]
    exact and_congr (by simpa using hiff) ih

/-- After any upserts, accepted or rejected, the edges that leave an asset are listed once each, a
rejected upsert changes nothing, and a snapshot is fresh just in case no edge of its route has been
upserted since. -/
theorem index_and_freshness (updates : List VenueEdge) :
    (∀ asset, (((default.upserts updates).outgoingEdges asset).map (·.id)).Nodup ∧
      ∀ edge, edge ∈ (default.upserts updates).outgoingEdges asset ↔
        (default.upserts updates).edge edge.id = some edge ∧ edge.fromAsset = asset) ∧
    (∀ edge e, ((default.upserts updates).upsertEdge edge).2 = .error e →
      ((default.upserts updates).upsertEdge edge).1 = default.upserts updates) ∧
    ∀ route snapshot, (default.upserts updates).snapshot route = .ok snapshot → ∀ later,
      ((default.upserts (updates ++ later)).isFresh snapshot = true ↔
        ∀ id ∈ route, ¬ (default.upserts updates).UpsertedSince later id) := by
  have hindexed : (default.upserts updates).Indexed := indexed_default.upserts updates
  refine ⟨fun asset => ⟨hindexed.nodup_outgoingEdges, fun edge => hindexed.mem_outgoingEdges⟩,
    fun edge e h => ?_, fun route snapshot h later => ?_⟩
  · apply upsertEdge_of_not_accepts
    rintro ⟨affected, haffected⟩
    simp [h] at haffected
  · rw [upserts_append]
    exact isFresh_iff (snapshot_ok h)

/-- An update with the same version is rejected and leaves the snapshot fresh. -/
theorem fresh_after_stale_update :
    let zero : Fixed := ⟨0, by norm_num⟩
    let edge : VenueEdge := ⟨"uni-usdc-weth", "uniswap-v4", "USDC", "WETH", 1, zero, zero, zero⟩
    ¬ (default.upserts [edge]).UpsertedSince [edge, edge] edge.id :=
  ((index_and_freshness [_]).2.2 ["uni-usdc-weth"] ⟨[("uni-usdc-weth", 1)]⟩ rfl _).mp
    (by decide +kernel) _ List.mem_cons_self

end RouteGraph

end Suwappu.Searcher
