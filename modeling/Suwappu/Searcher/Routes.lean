import Suwappu.Searcher.Graph

/-!
# Simple routes

`enumerate_simple_paths` walks the graph from an asset with one set of visited assets and one path
that it extends and shortens again. `mem_routesFrom`: it finds the routes whose assets between the
ends are new, and no others.
-/

namespace Suwappu.Searcher.RouteGraph

/-! ### The walk -/

/-- What `walk_paths` changes. -/
structure Walk where
  visited : Finset AssetId
  path : List EdgeId
  routes : List (List EdgeId)

/-- One edge out of the current asset, with the walk from where it leads. -/
def walkEdge (walk : AssetId → Walk → Walk) (goal : AssetId) (maxHops : ℕ) (w : Walk)
    (edge : VenueEdge) : Walk :=
  let w := { w with path := w.path ++ [edge.id] }
  let w :=
    if edge.toAsset = goal then { w with routes := w.routes ++ [w.path] }
    else if w.path.length < maxHops ∧ edge.toAsset ∉ w.visited then
      let w := walk edge.toAsset { w with visited := insert edge.toAsset w.visited }
      { w with visited := w.visited.erase edge.toAsset }
    else w
  { w with path := w.path.dropLast }

/-- The first argument bounds the depth of the recursion, in which the path grows. -/
def walkPaths (g : RouteGraph) (goal : AssetId) (maxHops : ℕ) : ℕ → AssetId → Walk → Walk
  | 0, _, w               => w
  | depth + 1, current, w =>
    if w.path.length ≥ maxHops then w
    else (g.outgoingEdges current).foldl (walkEdge (g.walkPaths goal maxHops depth) goal maxHops) w

def enumerateSimplePaths (g : RouteGraph) (start goal : AssetId) (maxHops : ℕ) :
    Except GraphError (List (List EdgeId)) :=
  if maxHops = 0 then .error .InvalidDepth
  else .ok (g.walkPaths goal maxHops maxHops start ⟨{start}, [], []⟩).routes

/-! ### Routes -/

/-- The assets between the ends of a route. -/
def inner (edges : List VenueEdge) : List AssetId := edges.dropLast.map VenueEdge.toAsset

/-- A route that comes back to an asset at its end at most, and to its start only there. -/
structure SimpleRoute (g : RouteGraph) (start goal : AssetId) (maxHops : ℕ)
    (edges : List VenueEdge) : Prop where
  stored : ∀ edge ∈ edges, g.edge edge.id = some edge
  starts : edges.head?.map VenueEdge.fromAsset = some start
  chained : edges.IsChain fun edge next => edge.toAsset = next.fromAsset
  ends : edges.getLast?.map VenueEdge.toAsset = some goal
  length_le : edges.length ≤ maxHops
  inner_goal : goal ∉ inner edges
  inner_start : start ∉ inner edges
  inner_nodup : (inner edges).Nodup

/-- The routes through one edge, with those from where it leads. -/
def routesThrough (routes : AssetId → Finset AssetId → List (List EdgeId)) (goal : AssetId)
    (hops : ℕ) (visited : Finset AssetId) (edge : VenueEdge) : List (List EdgeId) :=
  if edge.toAsset = goal then [[edge.id]]
  else if 0 < hops ∧ edge.toAsset ∉ visited then
    (routes edge.toAsset (insert edge.toAsset visited)).map (edge.id :: ·)
  else []

/-- The routes of at most some hops whose inner assets are not visited. -/
def routesFrom (g : RouteGraph) (goal : AssetId) : ℕ → AssetId → Finset AssetId → List (List EdgeId)
  | 0, _, _                    => []
  | hops + 1, current, visited =>
    (g.outgoingEdges current).flatMap (routesThrough (g.routesFrom goal hops) goal hops visited)

variable {g : RouteGraph} {goal current start : AssetId} {maxHops depth hops : ℕ} {edge : VenueEdge}
  {edges : List VenueEdge} {visited : Finset AssetId} {route : List EdgeId}

/-- The walk with further routes. -/
def Walk.add (w : Walk) (routes : List (List EdgeId)) : Walk :=
  { w with routes := w.routes ++ routes.map (w.path ++ ·) }

lemma Walk.add_add (w : Walk) (routes routes' : List (List EdgeId)) :
    (w.add routes).add routes' = w.add (routes ++ routes') := by
  simp [Walk.add]

lemma walkEdge_eq {walk : AssetId → Walk → Walk} {w : Walk}
    (hlength : maxHops - w.path.length = hops + 1)
    (hwalk : ∀ next v, maxHops - v.path.length = hops →
      walk next v = v.add (g.routesFrom goal hops next v.visited)) :
    walkEdge walk goal maxHops w edge =
      w.add (routesThrough (g.routesFrom goal hops) goal hops w.visited edge) := by
  unfold walkEdge routesThrough
  dsimp only
  have hpath : (w.path ++ [edge.id]).length = w.path.length + 1 := List.length_append
  split_ifs with hgoal hnext hnext' hnext'
  · simp [Walk.add]
  · -- the asset is visited for the walk alone
    rw [hwalk _ _ (by dsimp only; omega)]
    simp [Walk.add, hnext.2]
  · exact absurd ⟨by omega, hnext.2⟩ hnext'
  · exact absurd ⟨by omega, hnext'.2⟩ hnext
  · simp [Walk.add]

lemma foldl_walkEdge {walk : AssetId → Walk → Walk} (es : List VenueEdge) {w : Walk}
    (hlength : maxHops - w.path.length = hops + 1)
    (hwalk : ∀ next v, maxHops - v.path.length = hops →
      walk next v = v.add (g.routesFrom goal hops next v.visited)) :
    es.foldl (walkEdge walk goal maxHops) w =
      w.add (es.flatMap (routesThrough (g.routesFrom goal hops) goal hops w.visited)) := by
  induction es generalizing w with
  | nil => simp [Walk.add]
  | cons edge es ih =>
    rw [List.foldl_cons, walkEdge_eq hlength hwalk, List.flatMap_cons, ← Walk.add_add]
    exact ih hlength

/-- The walk appends the routes from where it is, and leaves the rest as it was. -/
lemma walkPaths_eq {w : Walk} (h : maxHops ≤ depth + w.path.length) :
    g.walkPaths goal maxHops depth current w =
      w.add (g.routesFrom goal (maxHops - w.path.length) current w.visited) := by
  have hdone : maxHops ≤ w.path.length →
      w = w.add (g.routesFrom goal (maxHops - w.path.length) current w.visited) := by
    intro hle
    rw [Nat.sub_eq_zero_of_le hle, routesFrom]
    simp [Walk.add]
  induction depth generalizing current w with
  | zero => exact hdone (by omega)
  | succ depth ih =>
    rw [walkPaths]
    split_ifs with hlength
    · exact hdone hlength
    · obtain ⟨hops, hhops⟩ : ∃ hops, maxHops - w.path.length = hops + 1 :=
        ⟨maxHops - w.path.length - 1, by omega⟩
      rw [hhops, routesFrom]
      refine foldl_walkEdge _ hhops fun next v hv => ?_
      rw [← hv]
      refine ih (by omega) fun hle => ?_
      rw [Nat.sub_eq_zero_of_le hle, routesFrom]
      simp [Walk.add]

/-! ### What is found -/

/-- A route from an asset to the goal, which it passes only at its end. -/
inductive Leads (g : RouteGraph) (goal : AssetId) : AssetId → List VenueEdge → Prop
  | last {edge : VenueEdge} (hstored : g.edge edge.id = some edge) (hgoal : edge.toAsset = goal) :
      Leads g goal edge.fromAsset [edge]
  | step {edge : VenueEdge} {edges : List VenueEdge} (hstored : g.edge edge.id = some edge)
      (hgoal : edge.toAsset ≠ goal) (h : Leads g goal edge.toAsset edges) :
      Leads g goal edge.fromAsset (edge :: edges)

lemma Leads.ne_nil (h : g.Leads goal current edges) : edges ≠ [] := by
  cases h <;> exact List.cons_ne_nil _ _

lemma inner_cons (h : edges ≠ []) : inner (edge :: edges) = edge.toAsset :: inner edges := by
  rw [inner, List.dropLast_cons_of_ne_nil h]
  rfl

lemma mem_routesFrom (hg : g.Indexed) : route ∈ g.routesFrom goal hops current visited ↔
    ∃ edges, route = edges.map VenueEdge.id ∧ g.Leads goal current edges ∧ edges.length ≤ hops ∧
      (inner edges).Nodup ∧ ∀ asset ∈ inner edges, asset ∉ visited := by
  induction hops generalizing current visited route with
  | zero =>
    refine iff_of_false (List.not_mem_nil) ?_
    rintro ⟨edges, -, hleads, hlength, -⟩
    exact hleads.ne_nil (List.length_eq_zero_iff.mp (Nat.le_zero.mp hlength))
  | succ hops ih =>
    rw [routesFrom, List.mem_flatMap]
    constructor
    · rintro ⟨edge, hedge, hroute⟩
      obtain ⟨hstored, rfl⟩ := hg.mem_outgoingEdges.mp hedge
      unfold routesThrough at hroute
      split_ifs at hroute with hgoal hnext
      · rw [List.mem_singleton.mp hroute]
        exact ⟨[edge], rfl, .last hstored hgoal, Nat.succ_le_succ (Nat.zero_le _), .nil, nofun⟩
      · obtain ⟨rest, hrest, rfl⟩ := List.mem_map.mp hroute
        obtain ⟨edges, rfl, hleads, hlength, hnodup, hfresh⟩ := ih.mp hrest
        refine ⟨edge :: edges, rfl, .step hstored hgoal hleads, Nat.succ_le_succ hlength, ?_, ?_⟩
        · rw [inner_cons hleads.ne_nil]
          exact List.nodup_cons.mpr ⟨fun hmem => hfresh _ hmem (Finset.mem_insert_self _ _), hnodup⟩
        · rw [inner_cons hleads.ne_nil]
          exact List.forall_mem_cons.mpr ⟨hnext.2, fun asset hasset hmem =>
            hfresh asset hasset (Finset.mem_insert_of_mem hmem)⟩
      · cases hroute
    · rintro ⟨edges, rfl, hleads, hlength, hnodup, hfresh⟩
      cases hleads with
      | last hstored hgoal =>
        refine ⟨_, hg.mem_outgoingEdges.mpr ⟨hstored, rfl⟩, ?_⟩
        rw [routesThrough, if_pos hgoal]
        exact List.mem_singleton.mpr rfl
      | step hstored hgoal hleads =>
        rename_i edge edges
        rw [inner_cons hleads.ne_nil] at hnodup hfresh
        obtain ⟨hedge, hnodup⟩ := List.nodup_cons.mp hnodup
        obtain ⟨hvisited, hfresh⟩ := List.forall_mem_cons.mp hfresh
        have hpos : 0 < hops :=
          (List.length_pos_iff.mpr hleads.ne_nil).trans_le (Nat.le_of_succ_le_succ hlength)
        refine ⟨edge, hg.mem_outgoingEdges.mpr ⟨hstored, rfl⟩, ?_⟩
        rw [routesThrough, if_neg hgoal, if_pos ⟨hpos, hvisited⟩]
        refine List.mem_map.mpr
          ⟨_, ih.mpr ⟨edges, rfl, hleads, Nat.le_of_succ_le_succ hlength, hnodup,
            fun asset hasset hmem => ?_⟩, rfl⟩
        rcases Finset.mem_insert.mp hmem with rfl | hmem
        · exact hedge hasset
        · exact hfresh asset hasset hmem

lemma head?_of_mem_routesThrough {routes : AssetId → Finset AssetId → List (List EdgeId)}
    (h : route ∈ routesThrough routes goal hops visited edge) : route.head? = some edge.id := by
  unfold routesThrough at h
  split_ifs at h
  · rw [List.mem_singleton.mp h]
    rfl
  · obtain ⟨rest, -, rfl⟩ := List.mem_map.mp h
    rfl
  · cases h

lemma nodup_routesFrom (hg : g.Indexed) : (g.routesFrom goal hops current visited).Nodup := by
  induction hops generalizing current visited with
  | zero => exact List.nodup_nil
  | succ hops ih =>
    rw [routesFrom]
    refine List.nodup_flatMap.mpr ⟨fun edge _ => ?_, ?_⟩
    · unfold routesThrough
      split_ifs
      · exact List.nodup_singleton _
      · exact ih.map List.cons_injective
      · exact List.nodup_nil
    · refine (List.pairwise_map.mp hg.nodup_outgoingEdges).imp fun hne route hroute hroute' =>
        hne ?_
      have hhead := head?_of_mem_routesThrough hroute
      exact Option.some.inj (hhead.symm.trans (head?_of_mem_routesThrough hroute'))

lemma leads_iff : g.Leads goal current edges ↔ (∀ edge ∈ edges, g.edge edge.id = some edge) ∧
    edges.head?.map VenueEdge.fromAsset = some current ∧
    (edges.IsChain fun edge next => edge.toAsset = next.fromAsset) ∧
    edges.getLast?.map VenueEdge.toAsset = some goal ∧ goal ∉ inner edges := by
  induction edges generalizing current with
  | nil => exact iff_of_false (fun h => h.ne_nil rfl) (fun h => by simp at h)
  | cons edge edges ih =>
    cases edges with
    | nil =>
      constructor
      · intro h
        cases h with
        | last hstored hgoal => simp [hstored, hgoal, inner]
        | step _ _ h => exact absurd rfl h.ne_nil
      · rintro ⟨hstored, hstart, -, hend, -⟩
        obtain rfl : edge.fromAsset = current := by simpa using hstart
        exact .last (hstored edge List.mem_cons_self) (by simpa using hend)
    | cons next edges =>
      rw [inner_cons (List.cons_ne_nil _ _), List.forall_mem_cons, List.isChain_cons_cons,
        List.getLast?_cons_cons, List.mem_cons, not_or]
      constructor
      · intro h
        cases h with
        | step hstored hgoal h =>
          obtain ⟨hrest, hstart, hchain, hend, hinner⟩ := ih.mp h
          have hnext : next.fromAsset = edge.toAsset := by simpa using hstart
          exact ⟨⟨hstored, hrest⟩, rfl, ⟨hnext.symm, hchain⟩, hend, hgoal.symm, hinner⟩
      · rintro ⟨⟨hstored, hrest⟩, hstart, ⟨hnext, hchain⟩, hend, hgoal, hinner⟩
        obtain rfl : edge.fromAsset = current := by simpa using hstart
        exact .step hstored (Ne.symm hgoal) (ih.mpr ⟨hrest, by simp [hnext], hchain, hend, hinner⟩)

/-- The enumeration has every simple route once, and nothing else. -/
theorem enumerateSimplePaths_exact (updates : List VenueEdge) (start goal : AssetId) (maxHops : ℕ)
    (h : 1 ≤ maxHops) : ∃ routes,
    (default.upserts updates).enumerateSimplePaths start goal maxHops = .ok routes ∧
      routes.Nodup ∧ ∀ route, route ∈ routes ↔ ∃ edges, route = edges.map VenueEdge.id ∧
        (default.upserts updates).SimpleRoute start goal maxHops edges := by
  have hg : (default.upserts updates).Indexed := indexed_default.upserts updates
  refine ⟨_, if_neg (by omega), ?_⟩
  rw [walkPaths_eq (by simp)]
  simp only [Walk.add, List.length_nil, Nat.sub_zero, List.nil_append, List.map_id']
  refine ⟨nodup_routesFrom hg, fun route => ?_⟩
  rw [mem_routesFrom hg]
  refine exists_congr fun edges => and_congr_right fun _ => ?_
  rw [leads_iff]
  constructor
  · rintro ⟨⟨hstored, hstart, hchain, hend, hgoal⟩, hlength, hnodup, hfresh⟩
    exact ⟨hstored, hstart, hchain, hend, hlength, hgoal,
      fun hmem => hfresh _ hmem (Finset.mem_singleton_self _), hnodup⟩
  · intro hroute
    refine ⟨⟨hroute.stored, hroute.starts, hroute.chained, hroute.ends, hroute.inner_goal⟩,
      hroute.length_le, hroute.inner_nodup, fun asset hasset hmem => ?_⟩
    exact hroute.inner_start (Finset.mem_singleton.mp hmem ▸ hasset)

/-- Two edges from USDC to WETH, one of them back, and one from USDC to itself. -/
def parallel : List VenueEdge :=
  let zero : Fixed := ⟨0, by norm_num⟩
  [("a", "USDC", "WETH"), ("b", "USDC", "WETH"), ("c", "WETH", "USDC"), ("d", "USDC", "USDC")].map
    fun (id, fromAsset, toAsset) => ⟨id, id, fromAsset, toAsset, 1, zero, zero, zero⟩

theorem cycles_exact : ∃ routes,
    (default.upserts parallel).enumerateSimplePaths "USDC" "USDC" 3 = .ok routes ∧
      routes.Nodup ∧ ∀ route, route ∈ routes ↔ ∃ edges, route = edges.map VenueEdge.id ∧
        (default.upserts parallel).SimpleRoute "USDC" "USDC" 3 edges :=
  enumerateSimplePaths_exact parallel "USDC" "USDC" 3 (by decide)

example : (default.upserts parallel).enumerateSimplePaths "USDC" "USDC" 3 =
    .ok [["a", "c"], ["b", "c"], ["d"]] := by
  decide +kernel

end Suwappu.Searcher.RouteGraph
