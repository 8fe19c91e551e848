import Suwappu.Lib.Processes

/-!
# Settling a season

Any number of runs of `settleSeason` of the API and of `settle_season` of the bot on one season,
while points accrue. The API commits each of its statements; the bot reads by queries and writes in
one transaction, which has the rows of its flush until the commit. A statement may fail, and the run
ends there.

`allocated_of_careful`: the allocations are shares of one total along every run in which nothing is
added to snapshots of other standings. `over_allocated`: a run that goes on from the snapshots of a
run that crashed gives away more than the pool.

Arithmetic is exact. Ranks, the symbol of the token and the fee revenue are left out.
-/

namespace Suwappu.SeasonsService.Settlement

abbrev UserId := ℕ

/-- A row of `season_points`. -/
structure SeasonPoints where
  userId : UserId
  points : ℚ≥0
deriving DecidableEq

/-- A row of `season_snapshots`. -/
structure SeasonSnapshot where
  userId : UserId
  finalPoints : ℚ≥0
  totalPoints : ℚ≥0
  tokenPool : ℚ≥0
  tokenAllocation : ℚ≥0
deriving DecidableEq

structure State where
  tokenPool : ℚ≥0
  settled : Bool
  totalPointsSnapshot : Option ℚ≥0
  points : List SeasonPoints
  snapshots : List SeasonSnapshot
  /-- the snapshots that a transaction has flushed; it has the row of the season -/
  flushed : Option (List SeasonSnapshot)

inductive Proc where
  | idle
  -- the API
  | apiStandings
  | apiTotal (standings : List SeasonPoints)
  | apiSnapshots (standings rest : List SeasonPoints)
  | apiSettled (standings : List SeasonPoints)
  -- the bot
  | botRows
  | botExisting (rows : List SeasonPoints)
  | botFlush (rows : List SeasonPoints) (existingUserIds : List UserId)
  | botCommit (rows : List SeasonPoints) (snapshots : List SeasonSnapshot)
deriving DecidableEq

inductive Answer where
  /-- a run of the API begins, with its read of the season -/
  | apiSettleSeason
  /-- a run of the bot -/
  | botSettleSeason
  | ok
  /-- the rows with points, where those with equal points come in any order -/
  | standings (rows : List SeasonPoints)
  /-- the statement fails, or the process crashes -/
  | raises

inductive Event where
  /-- what a funnel writes for a user -/
  | accrue (userId : UserId) (points : ℚ≥0)

inductive Error where
  /-- the step waits for another answer -/
  | NotNext
  /-- a transaction has the row -/
  | Locked
deriving DecidableEq, Repr

/-! ### Rows -/

def userIds (rows : List SeasonPoints) : List UserId := rows.map SeasonPoints.userId

def snapshotUserIds (snapshots : List SeasonSnapshot) : List UserId :=
  snapshots.map SeasonSnapshot.userId

def total (rows : List SeasonPoints) : ℚ≥0 := (rows.map SeasonPoints.points).sum

/-- The snapshot of one user. -/
def snapshot (tokenPool total : ℚ≥0) (row : SeasonPoints) : SeasonSnapshot where
  userId := row.userId
  finalPoints := row.points
  totalPoints := total
  tokenPool := tokenPool
  tokenAllocation := if 0 < total then row.points / total * tokenPool else 0

/-- The snapshots that a run writes where there are none. -/
def snapshotsOf (tokenPool : ℚ≥0) (rows : List SeasonPoints) : List SeasonSnapshot :=
  rows.map (snapshot tokenPool (total rows))

/-- What a query for the standings answers. -/
def State.Standings (s : State) (rows : List SeasonPoints) : Prop :=
  rows.Perm (s.points.filter fun row => 0 < row.points) ∧
    rows.Pairwise fun row row' => row'.points ≤ row.points

instance (s : State) (rows : List SeasonPoints) : Decidable (s.Standings rows) :=
  inferInstanceAs (Decidable (_ ∧ _))

/-- The users whose snapshots a transaction has inserted. -/
def State.flushedUserIds (s : State) : List UserId := snapshotUserIds (s.flushed.getD [])

/-- `ON CONFLICT DO NOTHING`. -/
def State.insert (s : State) (new : SeasonSnapshot) : State :=
  if new.userId ∈ snapshotUserIds s.snapshots then s
  else { s with snapshots := s.snapshots ++ [new] }

def accrue (rows : List SeasonPoints) (userId : UserId) (points : ℚ≥0) : List SeasonPoints :=
  if userId ∈ userIds rows then
    rows.map fun row => if row.userId = userId then ⟨userId, points⟩ else row
  else rows ++ [⟨userId, points⟩]

/-! ### Steps -/

def step (s : State) : Proc → Answer → Except Error (State × Proc)
  | .idle, .apiSettleSeason => .ok (s, if s.settled then .idle else .apiStandings)
  | .idle, .botSettleSeason => .ok (s, if s.settled then .idle else .botRows)
  -- the API
  | .apiStandings, .standings standings =>
    if s.Standings standings then .ok (s, .apiTotal standings) else .error .NotNext
  | .apiTotal standings, .ok =>
    if s.flushed.isSome then .error .Locked
    else .ok ({ s with totalPointsSnapshot := some (total standings) },
      .apiSnapshots standings standings)
  | .apiSnapshots standings (row :: rest), .ok =>
    if row.userId ∈ s.flushedUserIds then .error .Locked
    else .ok (s.insert (snapshot s.tokenPool (total standings) row), .apiSnapshots standings rest)
  -- the fee revenue is read
  | .apiSnapshots standings [], .ok => .ok (s, .apiSettled standings)
  | .apiSettled _, .ok =>
    if s.flushed.isSome then .error .Locked else .ok ({ s with settled := true }, .idle)
  -- the bot, which reads the fee revenue together with the rows
  | .botRows, .standings rows =>
    if s.Standings rows then .ok (s, .botExisting rows) else .error .NotNext
  | .botExisting rows, .ok => .ok (s, .botFlush rows (snapshotUserIds s.snapshots))
  | .botFlush rows existingUserIds, .ok =>
    let new := (rows.filter fun row => row.userId ∉ existingUserIds).map
      (snapshot s.tokenPool (total rows))
    if s.flushed.isSome then .error .Locked
    -- the unique index raises, and nothing is written
    else if ∃ userId ∈ snapshotUserIds new, userId ∈ snapshotUserIds s.snapshots then .ok (s, .idle)
    else .ok ({ s with flushed := some new }, .botCommit rows new)
  | .botCommit rows new, .ok =>
    .ok ({ s with
      settled := true
      totalPointsSnapshot := some (total rows)
      snapshots := s.snapshots ++ new
      flushed := none }, .idle)
  | .botCommit _ _, .raises => .ok ({ s with flushed := none }, .idle)
  | .apiStandings, .raises | .apiTotal _, .raises | .apiSnapshots _ _, .raises => .ok (s, .idle)
  | .apiSettled _, .raises | .botRows, .raises | .botExisting _, .raises => .ok (s, .idle)
  | .botFlush _ _, .raises => .ok (s, .idle)
  | _, _ => .error .NotNext

def environment (s : State) : Event → Except Error State
  | .accrue userId points => .ok { s with points := accrue s.points userId points }

def program : Program State Proc Answer Event Error := ⟨step, environment⟩

def initial (n : ℕ) (tokenPool : ℚ≥0) : Program.Config State Proc n :=
  ⟨⟨tokenPool, false, none, [], [], none⟩, fun _ => .idle⟩

/-! ### Shares of a pool -/

structure Allocated (s : State) : Prop where
  sum_le : (s.snapshots.map SeasonSnapshot.tokenAllocation).sum ≤ s.tokenPool
  nodup : (snapshotUserIds s.snapshots).Nodup
  proRata : s.settled = true → ∀ row ∈ s.snapshots, row.tokenAllocation =
    row.finalPoints / (s.snapshots.map SeasonSnapshot.finalPoints).sum * s.tokenPool

/-- The snapshots are among those that the run itself writes. -/
def SameStandings (s : State) (rows : List SeasonPoints) : Bool :=
  s.snapshots ⊆ snapshotsOf s.tokenPool rows

/-- A snapshot joins others of the same standings only, before the season is settled, and it is
settled with the snapshots of those. -/
def Careful (s : State) : Proc → Answer → Bool
  | .apiSnapshots standings (row :: _), .ok =>
    row.userId ∈ snapshotUserIds s.snapshots ∨ SameStandings s standings ∧ ¬ s.settled
  | .apiSettled standings, .ok => SameStandings s standings
  | .botCommit rows _, .ok     => SameStandings s rows
  | _, _                       => true

variable {s s' : State} {p p' q : Proc} {rest weights : ℕ} {careful : Bool}
  {rows done : List SeasonPoints} {row : SeasonPoints} {new : List SeasonSnapshot} {pool sum : ℚ≥0}

@[simp] lemma snapshotUserIds_append {snapshots : List SeasonSnapshot} :
    snapshotUserIds (snapshots ++ new) = snapshotUserIds snapshots ++ snapshotUserIds new :=
  List.map_append

lemma snapshotUserIds_map : snapshotUserIds (rows.map (snapshot pool sum)) = userIds rows := by
  rw [snapshotUserIds, List.map_map]
  rfl

lemma sum_finalPoints :
    ((snapshotsOf pool rows).map SeasonSnapshot.finalPoints).sum = total rows := by
  rw [snapshotsOf, List.map_map]
  rfl

lemma sum_share : (rows.map fun row => row.points / sum * pool).sum = total rows / sum * pool := by
  induction rows with
  | nil => simp [total]
  | cons row rows ih =>
    rw [List.map_cons, List.sum_cons, ih, ← add_mul, ← add_div]
    rfl

/-- The guard against a total of zero makes no difference. -/
lemma tokenAllocation_eq (row : SeasonPoints) :
    (snapshot pool sum row).tokenAllocation = row.points / sum * pool := by
  rcases eq_zero_or_pos sum with rfl | hpos
  · simp [snapshot]
  · exact if_pos hpos

/-- All shares together are the pool, or nothing where nobody has points. -/
lemma sum_tokenAllocation_le :
    ((snapshotsOf pool rows).map SeasonSnapshot.tokenAllocation).sum ≤ pool := by
  have hshare : (snapshotsOf pool rows).map SeasonSnapshot.tokenAllocation =
      rows.map fun row => row.points / total rows * pool := by
    rw [snapshotsOf, List.map_map]
    exact List.map_congr_left fun row _ => tokenAllocation_eq row
  rw [hshare, sum_share]
  exact mul_le_of_le_one_left zero_le (div_self_le_one _)

lemma mem_snapshotsOf {snap : SeasonSnapshot} :
    snap ∈ snapshotsOf pool rows ↔ ∃ row ∈ rows, snapshot pool (total rows) row = snap :=
  List.mem_map

lemma nodup_of_userIds {snapshots : List SeasonSnapshot} (h : (snapshotUserIds snapshots).Nodup) :
    snapshots.Nodup :=
  h.of_map _

/-! ### The invariant -/

/-- The snapshots are some of those of one standings, and all of them once the season is settled. -/
def FromOneStandings (s : State) : Prop :=
  ∃ rows, (userIds rows).Nodup ∧ s.snapshots ⊆ snapshotsOf s.tokenPool rows ∧
    (s.settled = true → userIds rows ⊆ snapshotUserIds s.snapshots)

lemma allocated_of_fromOneStandings (hnodup : (snapshotUserIds s.snapshots).Nodup)
    (h : FromOneStandings s) : Allocated s := by
  obtain ⟨rows, hrows, hsub, hall⟩ := h
  have hsubperm := (nodup_of_userIds hnodup).subperm hsub
  refine ⟨?_, hnodup, fun hsettled snap hsnap => ?_⟩
  · obtain ⟨l, hperm, hl⟩ := hsubperm
    rw [← (hperm.map _).sum_eq]
    exact ((hl.map _).sum_le_sum fun _ _ => zero_le).trans sum_tokenAllocation_le
  · -- as many snapshots as rows, so they are all of them
    have hlength : (snapshotsOf s.tokenPool rows).length ≤ s.snapshots.length := by
      have hle := (hrows.subperm (hall hsettled)).length_le
      rw [userIds, snapshotUserIds, List.length_map, List.length_map] at hle
      rwa [snapshotsOf, List.length_map]
    have hperm := hsubperm.perm_of_length_le hlength
    obtain ⟨row, -, rfl⟩ := mem_snapshotsOf.mp (hsub hsnap)
    rw [tokenAllocation_eq, (hperm.map _).sum_eq, sum_finalPoints]
    rfl

def weight : Proc → ℕ
  | .botCommit _ _ => 1
  | _              => 0

structure Sound (careful : Bool) (s : State) (weights : ℕ) : Prop where
  flushed : weights = s.flushed.isSome.toNat
  points : (userIds s.points).Nodup
  nodup : (snapshotUserIds s.snapshots).Nodup
  standings : careful = true → FromOneStandings s

/-- What a transaction has flushed are the snapshots that are missing. -/
structure Flushed (s : State) (rows : List SeasonPoints) (new : List SeasonSnapshot) : Prop where
  flushed : s.flushed = some new
  ofRows : new ⊆ snapshotsOf s.tokenPool rows
  nodup : (snapshotUserIds new).Nodup
  fresh : ∀ userId ∈ snapshotUserIds new, userId ∉ snapshotUserIds s.snapshots
  all : ∀ userId ∈ userIds rows, userId ∈ snapshotUserIds s.snapshots ∨ userId ∈ snapshotUserIds new

def Knows (s : State) : Proc → Prop
  | .idle | .apiStandings | .botRows => True
  | .apiTotal rows | .botExisting rows => (userIds rows).Nodup
  | .apiSnapshots standings rest => (userIds standings).Nodup ∧
    ∃ done, standings = done ++ rest ∧ userIds done ⊆ snapshotUserIds s.snapshots
  | .apiSettled standings =>
    (userIds standings).Nodup ∧ userIds standings ⊆ snapshotUserIds s.snapshots
  | .botFlush rows existingUserIds =>
    (userIds rows).Nodup ∧ existingUserIds ⊆ snapshotUserIds s.snapshots
  | .botCommit rows new => (userIds rows).Nodup ∧ Flushed s rows new

/-- Snapshots stay, and while a transaction has flushed some, no others are of its users. -/
structure Frame (s s' : State) (rest : ℕ) : Prop where
  tokenPool : s'.tokenPool = s.tokenPool
  snapshots : snapshotUserIds s.snapshots ⊆ snapshotUserIds s'.snapshots
  flushed : 0 < rest → s'.flushed = s.flushed
  fresh : 0 < rest → ∀ userId ∈ s.flushedUserIds, userId ∈ snapshotUserIds s'.snapshots →
    userId ∈ snapshotUserIds s.snapshots

lemma Frame.knows (h : Frame s s' rest) (hq : weight q ≤ rest) (hknows : Knows s q) :
    Knows s' q := by
  cases q with
  | idle | apiStandings | botRows => trivial
  | apiTotal | botExisting => exact hknows
  | apiSnapshots standings remaining =>
    obtain ⟨hnodup, done, rfl, hdone⟩ := hknows
    exact ⟨hnodup, done, rfl, List.Subset.trans hdone h.snapshots⟩
  | apiSettled | botFlush => exact ⟨hknows.1, List.Subset.trans hknows.2 h.snapshots⟩
  | botCommit rows new =>
    obtain ⟨hnodup, hflushed⟩ := hknows
    refine ⟨hnodup, (h.flushed hq).trans hflushed.flushed, ?_, hflushed.nodup, ?_, ?_⟩
    · rw [h.tokenPool]
      exact hflushed.ofRows
    · intro userId huser hmem
      refine hflushed.fresh userId huser (h.fresh hq userId ?_ hmem)
      rw [State.flushedUserIds, hflushed.flushed]
      exact huser
    · exact fun userId huser => (hflushed.all userId huser).imp_left (@h.snapshots userId)

/-- What a step keeps. -/
structure Kept (careful : Bool) (s : State) (rest : ℕ) (s' : State) (p' : Proc) : Prop where
  sound : Sound careful s' (weight p' + rest)
  knows : Knows s' p'
  frame : Frame s s' rest

lemma Sound.move (h : Sound careful s (weight p + rest)) (hweight : weight p' = weight p)
    (hknows : Knows s p') : Kept careful s rest s p' :=
  ⟨hweight ▸ h, hknows, rfl, List.Subset.refl _, fun _ => rfl, fun _ _ _ hmem => hmem⟩

/-! ### Writes -/

lemma nodup_accrue {userId : UserId} {points : ℚ≥0} (h : (userIds rows).Nodup) :
    (userIds (accrue rows userId points)).Nodup := by
  unfold accrue
  split_ifs with hmem
  · have hsame :
      userIds (rows.map fun row => if row.userId = userId then ⟨userId, points⟩ else row) =
        userIds rows := by
      rw [userIds, List.map_map]
      refine List.map_congr_left fun row _ => ?_
      by_cases hrow : row.userId = userId <;> simp [hrow]
    rwa [hsame]
  · have hconcat := h.concat hmem
    rw [List.concat_eq_append] at hconcat
    rw [userIds, List.map_append]
    exact hconcat

/-- The rows of the standings are rows of different users. -/
lemma Sound.standings_nodup (h : Sound careful s weights) (hrows : s.Standings rows) :
    (userIds rows).Nodup :=
  (hrows.1.map _).nodup_iff.mpr (h.points.sublist (List.filter_sublist.map _))

lemma sameStandings_iff :
    SameStandings s rows = true ↔ s.snapshots ⊆ snapshotsOf s.tokenPool rows :=
  decide_eq_true_iff

/-- A snapshot is inserted, unless its user has one. -/
lemma Sound.insert (h : Sound careful s (weight p + rest)) (hrows : (userIds rows).Nodup)
    (hmem : row ∈ rows) (hfree : row.userId ∉ s.flushedUserIds)
    (hcareful : careful = true → row.userId ∈ snapshotUserIds s.snapshots ∨
      SameStandings s rows = true ∧ s.settled = false) :
    Sound careful (s.insert (snapshot s.tokenPool (total rows) row)) (weight p + rest) ∧
      row.userId ∈ snapshotUserIds (s.insert (snapshot s.tokenPool (total rows) row)).snapshots ∧
      Frame s (s.insert (snapshot s.tokenPool (total rows) row)) rest := by
  unfold State.insert
  split_ifs with hconflict
  · exact ⟨h, hconflict, rfl, List.Subset.refl _, fun _ => rfl, fun _ _ _ hmem => hmem⟩
  · refine ⟨⟨h.flushed, h.points, ?_, fun hc => ?_⟩, ?_, rfl, ?_, fun _ => rfl, ?_⟩
    · have hconcat := h.nodup.concat hconflict
      rw [List.concat_eq_append] at hconcat
      rw [snapshotUserIds_append]
      exact hconcat
    · obtain ⟨hsame, hsettled⟩ := (hcareful hc).resolve_left hconflict
      refine ⟨rows, hrows, List.append_subset.mpr ⟨sameStandings_iff.mp hsame, ?_⟩, ?_⟩
      · exact List.cons_subset.mpr ⟨mem_snapshotsOf.mpr ⟨row, hmem, rfl⟩, List.nil_subset _⟩
      · intro htrue
        exact absurd (htrue.symm.trans hsettled) Bool.true_eq_false_eq_False
    · rw [snapshotUserIds_append]
      exact List.mem_append_right _ (List.mem_singleton.mpr rfl)
    · rw [snapshotUserIds_append]
      exact List.subset_append_left _ _
    · intro _ userId huser huser'
      rw [snapshotUserIds_append] at huser'
      refine (List.mem_append.mp huser').resolve_right fun hnew => hfree ?_
      rwa [List.mem_singleton.mp hnew] at huser

/-- The snapshots that are missing are those of the users without one. -/
lemma flushed_of_disjoint {existing : List UserId} (hrows : (userIds rows).Nodup)
    (hexisting : existing ⊆ snapshotUserIds s.snapshots)
    (hnew : new = (rows.filter fun row => row.userId ∉ existing).map
      (snapshot s.tokenPool (total rows)))
    (hfresh : ¬ ∃ userId ∈ snapshotUserIds new, userId ∈ snapshotUserIds s.snapshots) :
    Flushed { s with flushed := some new } rows new := by
  subst hnew
  refine ⟨rfl, List.map_subset _ (List.filter_subset_self _), ?_, ?_, ?_⟩
  · rw [snapshotUserIds_map]
    exact hrows.sublist (List.filter_sublist.map _)
  · exact fun userId huser hmem => hfresh ⟨userId, huser, hmem⟩
  · intro userId huser
    obtain ⟨row, hrow, rfl⟩ := List.mem_map.mp huser
    by_cases hold : row.userId ∈ existing
    · exact .inl (hexisting hold)
    · refine .inr ?_
      rw [snapshotUserIds_map]
      exact List.mem_map.mpr ⟨row, List.mem_filter.mpr ⟨hrow, decide_eq_true hold⟩, rfl⟩

/-- The commit completes the snapshots. -/
lemma Sound.commit (h : Sound careful s (weight (.botCommit rows new) + rest))
    (hrows : (userIds rows).Nodup) (hflushed : Flushed s rows new)
    (hcareful : careful = true → SameStandings s rows = true) :
    Kept careful s rest { s with
      settled := true
      totalPointsSnapshot := some (total rows)
      snapshots := s.snapshots ++ new
      flushed := none } .idle := by
  have hrest : rest = 0 := by
    have hlocked := h.flushed
    rw [hflushed.flushed] at hlocked
    simp only [weight, Option.isSome_some, Bool.toNat_true] at hlocked
    omega
  refine ⟨⟨?_, h.points, ?_, fun hc => ⟨rows, hrows, ?_, fun _ userId huser => ?_⟩⟩, trivial,
    rfl, ?_, fun hpos => by omega, fun hpos => by omega⟩
  · rw [hrest]
    rfl
  · rw [snapshotUserIds_append, List.nodup_append']
    exact ⟨h.nodup, hflushed.nodup, fun userId huser hnew => hflushed.fresh userId hnew huser⟩
  · exact List.append_subset.mpr ⟨sameStandings_iff.mp (hcareful hc), hflushed.ofRows⟩
  · rw [snapshotUserIds_append]
    exact List.mem_append.mpr (hflushed.all userId huser)
  · rw [snapshotUserIds_append]
    exact List.subset_append_left _ _

/-! ### Steps -/

theorem step_kept {answer : Answer} (h : Sound careful s (weight p + rest)) (hknows : Knows s p)
    (hcareful : careful = true → Careful s p answer = true)
    (hstep : step s p answer = .ok (s', p')) : Kept careful s rest s' p' := by
  cases p with
  | idle =>
    cases answer with
    | apiSettleSeason | botSettleSeason =>
      dsimp only [step] at hstep
      cases hstep
      split_ifs
      · exact h.move rfl trivial
      · exact h.move rfl trivial
    | _ => cases hstep
  -- the API
  | apiStandings =>
    cases answer with
    | standings standings =>
      dsimp only [step] at hstep
      split_ifs at hstep with hstandings
      cases hstep
      exact h.move rfl (h.standings_nodup hstandings)
    | raises =>
      cases hstep
      exact h.move rfl trivial
    | _ => cases hstep
  | apiTotal standings =>
    cases answer with
    | ok =>
      dsimp only [step] at hstep
      split_ifs at hstep
      cases hstep
      refine ⟨⟨h.flushed, h.points, h.nodup, h.standings⟩, ⟨hknows, [], rfl, List.nil_subset _⟩,
        rfl, List.Subset.refl _, fun _ => rfl, fun _ _ _ hmem => hmem⟩
    | raises =>
      cases hstep
      exact h.move rfl trivial
    | _ => cases hstep
  | apiSnapshots standings todo =>
    cases answer with
    | ok =>
      cases todo with
      | nil =>
        cases hstep
        obtain ⟨hnodup, done, rfl, hdone⟩ := hknows
        rw [List.append_nil] at hnodup ⊢
        exact h.move rfl ⟨hnodup, hdone⟩
      | cons row remaining =>
        dsimp only [step] at hstep
        split_ifs at hstep with hfree
        cases hstep
        obtain ⟨hnodup, done, rfl, hdone⟩ := hknows
        have hrow : row ∈ done ++ row :: remaining :=
          List.mem_append_right _ (List.mem_cons_self ..)
        obtain ⟨hsound, hmem, hframe⟩ := h.insert hnodup hrow hfree fun hc => by
          simpa [Careful] using hcareful hc
        refine ⟨hsound,
          ⟨hnodup, done ++ [row], by rw [List.append_assoc, List.singleton_append], ?_⟩, hframe⟩
        rw [userIds, List.map_append]
        refine List.append_subset.mpr ⟨List.Subset.trans hdone hframe.snapshots, ?_⟩
        exact List.cons_subset.mpr ⟨hmem, List.nil_subset _⟩
    | raises =>
      have hraised : step s (.apiSnapshots standings todo) .raises = .ok (s, .idle) := by
        cases todo <;> rfl
      rw [hraised] at hstep
      cases hstep
      exact h.move rfl trivial
    | _ => cases todo <;> cases hstep
  | apiSettled standings =>
    cases answer with
    | ok =>
      dsimp only [step] at hstep
      split_ifs at hstep
      cases hstep
      refine ⟨⟨h.flushed, h.points, h.nodup, fun hc => ?_⟩, trivial, rfl, List.Subset.refl _,
        fun _ => rfl, fun _ _ _ hmem => hmem⟩
      exact ⟨standings, hknows.1, sameStandings_iff.mp (hcareful hc), fun _ => hknows.2⟩
    | raises =>
      cases hstep
      exact h.move rfl trivial
    | _ => cases hstep
  -- the bot
  | botRows =>
    cases answer with
    | standings rows =>
      dsimp only [step] at hstep
      split_ifs at hstep with hstandings
      cases hstep
      exact h.move rfl (h.standings_nodup hstandings)
    | raises =>
      cases hstep
      exact h.move rfl trivial
    | _ => cases hstep
  | botExisting rows =>
    cases answer with
    | ok =>
      cases hstep
      exact h.move rfl ⟨hknows, List.Subset.refl _⟩
    | raises =>
      cases hstep
      exact h.move rfl trivial
    | _ => cases hstep
  | botFlush rows existingUserIds =>
    cases answer with
    | ok =>
      dsimp only [step] at hstep
      split_ifs at hstep with hbusy hconflict
      · cases hstep
        exact h.move rfl trivial
      · cases hstep
        have hnone := Option.not_isSome_iff_eq_none.mp hbusy
        have hrest : rest = 0 := by
          have hlocked := h.flushed
          rw [hnone] at hlocked
          simp only [weight, Option.isSome_none, Bool.toNat_false] at hlocked
          omega
        refine ⟨⟨?_, h.points, h.nodup, h.standings⟩,
          ⟨hknows.1, flushed_of_disjoint hknows.1 hknows.2 rfl hconflict⟩, rfl,
          List.Subset.refl _, fun hpos => by omega, fun hpos => by omega⟩
        rw [hrest]
        rfl
    | raises =>
      cases hstep
      exact h.move rfl trivial
    | _ => cases hstep
  | botCommit rows snapshots =>
    cases answer with
    | ok =>
      cases hstep
      exact h.commit hknows.1 hknows.2 hcareful
    | raises =>
      cases hstep
      have hrest : rest = 0 := by
        have hlocked := h.flushed
        rw [hknows.2.flushed] at hlocked
        simp only [weight, Option.isSome_some, Bool.toNat_true] at hlocked
        omega
      refine ⟨⟨?_, h.points, h.nodup, h.standings⟩, trivial, rfl, List.Subset.refl _,
        fun hpos => by omega, fun hpos => by omega⟩
      rw [hrest]
      rfl
    | _ => cases hstep

/-! ### Runs -/

lemma environment_sound {event : Event} (h : Sound careful s weights)
    (hevent : environment s event = .ok s') : Sound careful s' weights ∧ Frame s s' weights := by
  cases event with
  | accrue userId points =>
    cases hevent
    exact ⟨⟨h.flushed, nodup_accrue h.points, h.nodup, h.standings⟩, rfl, List.Subset.refl _,
      fun _ => rfl, fun _ _ _ hmem => hmem⟩

theorem inductive_sound (careful : Bool) {C : State → ℕ → Proc → Answer → Prop}
    (hC : ∀ s rest p answer, C s rest p answer → careful = true → Careful s p answer = true) :
    program.Inductive weight (Sound careful) Knows C fun _ _ _ => True where
  step h hknows hcareful hstep :=
    let hkept := step_kept h hknows (hC _ _ _ _ hcareful) hstep
    ⟨hkept.sound, hkept.knows⟩
  stable h hknows hcareful hstep hq hknows' :=
    (step_kept h hknows (hC _ _ _ _ hcareful) hstep).frame.knows hq hknows'
  environment h _ hevent :=
    ⟨(environment_sound h hevent).1, fun _ hq => (environment_sound h hevent).2.knows hq⟩

lemma initial_sound (careful : Bool) (n : ℕ) (tokenPool : ℚ≥0) :
    Program.Invariant weight (Sound careful) Knows (initial n tokenPool) where
  shared := by
    have htotal : (initial n tokenPool).total weight = 0 := Finset.sum_eq_zero fun _ _ => rfl
    rw [htotal]
    exact ⟨rfl, List.nodup_nil, List.nodup_nil,
      fun _ => ⟨[], List.nodup_nil, List.nil_subset _, nofun⟩⟩
  knows _ := trivial

/-- In every run a user has at most one snapshot. -/
theorem nodup_snapshots (n : ℕ) (tokenPool : ℚ≥0) (as : List (Program.Action n Answer Event)) :
    (snapshotUserIds ((program.machine n).run (initial n tokenPool) as).shared.snapshots).Nodup :=
  ((inductive_sound false fun _ _ _ _ _ => nofun).run_always as
    (initial_sound false n tokenPool)).shared.nodup

/-- Along a run in which a snapshot joins others of the same standings only. -/
theorem allocated_of_careful (n : ℕ) (tokenPool : ℚ≥0) (as : List (Program.Action n Answer Event))
    (hcareful : (program.machine n).Along
      (Program.Meets weight (fun s _ p answer => Careful s p answer = true) fun _ _ _ => True)
      (initial n tokenPool) as) :
    Allocated ((program.machine n).run (initial n tokenPool) as).shared :=
  have h := ((inductive_sound true fun _ _ _ _ hcareful _ => hcareful).run as
    (initial_sound true n tokenPool) hcareful).shared
  allocated_of_fromOneStandings h.nodup (h.standings rfl)

/-- One user has a point, and the API inserts his snapshot. -/
def firstSnapshot {n : ℕ} (i : Fin n) : List (Program.Action n Answer Event) :=
  .environment (.accrue 1 1) ::
    List.map (.take i) [.apiSettleSeason, .standings [⟨1, 1⟩], .ok, .ok]

/-- Another user has a point too, and the API inserts what is missing. -/
def secondSnapshot {n : ℕ} (i : Fin n) : List (Program.Action n Answer Event) :=
  .environment (.accrue 2 1) ::
    List.map (.take i) [.apiSettleSeason, .standings [⟨1, 1⟩, ⟨2, 1⟩], .ok, .ok, .ok]

/-- The API and the bot settle the same standings at once. -/
theorem overlap_allocated : Allocated ((program.machine 2).run (initial 2 1)
    (.take 1 .botSettleSeason :: firstSnapshot 0 ++ List.map (.take 1)
      [.standings [⟨1, 1⟩], .ok, .ok, .ok] ++ List.map (.take 0) [.ok, .ok])).shared :=
  allocated_of_careful 2 1 _ (by decide +kernel)

/-- The run that goes on after a crash gives away half of the pool again. -/
theorem over_allocated : ¬ ∀ (n : ℕ) (tokenPool : ℚ≥0) (as : List (Program.Action n Answer Event)),
    Allocated ((program.machine n).run (initial n tokenPool) as).shared := by
  intro h
  have hsum := (h 1 1 (firstSnapshot 0 ++ [.take 0 .raises] ++ secondSnapshot 0)).sum_le
  revert hsum
  decide +kernel

end Suwappu.SeasonsService.Settlement
