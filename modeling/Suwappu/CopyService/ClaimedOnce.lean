import Suwappu.CopyService.Copies
import Suwappu.Lib.History
import Suwappu.Lib.Rows
import Suwappu.Lib.Window

/-!
# Copies are claimed once and within the daily limit

`claimedOnce_of_careful`: where no unlocked session writes to a copy that has been claimed, and no
negative amount is counted as a reservation, `execute_swap` is called at most once for a copy and
after its claim, a claimed copy stays taken, and each claim leaves the day within the limit.
-/

namespace Suwappu.CopyService

open History Window

/-- What is claimed for the follow since the midnight before, and the limit. -/
def WithinLimit (before : List Claim) (c : Claim) : Prop :=
  sumSince Claim.time Claim.amount (before.filter fun b => b.followId = c.followId)
    (dayStart c.time) + c.amount ≤ c.limit

structure ClaimedOnce (s : State) : Prop where
  once : s.swaps.Nodup
  claimed : ∀ id ∈ s.swaps, id ∈ s.claims.map Claim.copyId
  taken : ∀ c ∈ s.claims, ∃ copy, s.copies[c.copyId]? = some copy ∧ copy.status.isTaken = true
  budget : Each WithinLimit s.claims

/-- The copy to which an unlocked session writes. -/
def Proc.overwrites : Proc → Answer → Option CopyId
  | .write id _, .ok | .writePaper id _, .ok => some id
  | _, _ => none

/-- The follow whose reservations are summed for a claim. -/
def Proc.sums : Proc → Answer → Option FollowId
  | .readReserved _ copy _, .ok => some copy.followId
  | _, _ => none

/-- Nothing that is claimed is overwritten, and no negative amount is summed. -/
def Careful (s : State) (p : Proc) (answer : Answer) : Prop :=
  (∀ id ∈ p.overwrites answer, id ∉ s.claims.map Claim.copyId) ∧
    ∀ followId ∈ p.sums answer, ∀ c ∈ s.copies, c.followId = followId → 0 ≤ c.copyAmountUsd

instance decidableCareful (s : State) (p : Proc) (answer : Answer) :
    Decidable (Careful s p answer) :=
  inferInstanceAs (Decidable (_ ∧ _))

/-! ### Locks and claims -/

/-- What a process has alone: a row that it has locked, or a claim that it has to execute. -/
inductive Token where
  | copy (id : CopyId)
  | follow (id : FollowId)
  | swap (id : CopyId)
deriving DecidableEq

def Proc.tokens : Proc → List Token
  | .lockFollow order _           => [.copy order.id]
  | .readWallet order copy _      => [.copy order.id, .follow copy.followId]
  | .readReserved order copy _    => [.copy order.id, .follow copy.followId]
  | .claim order copy _           => [.copy order.id, .follow copy.followId]
  | .reject id follows            => .copy id :: follows.map .follow
  | .executeSwap id               => [.swap id]
  | .record _ _ locked _ _        => locked.map .follow
  | .readExisting _ _ locked _ _ _ => locked.map .follow
  | _                             => []

def weight (p : Proc) : Token → ℕ := fun t => p.tokens.count t

def State.granted (s : State) : Token → ℕ
  | .copy id   => s.lockedCopies.count id
  | .follow id => s.lockedFollows.count id
  | .swap id   => (s.claims.map Claim.copyId).count id

def State.spent (s : State) : Token → ℕ
  | .swap id => s.swaps.count id
  | _        => 0

/-- The row of a claim. -/
structure CopyTrade.Claimed (copy : CopyTrade) (c : Claim) : Prop where
  follow : copy.followId = c.followId
  taken : copy.status.isTaken = true
  amount : copy.copyAmountUsd = c.amount
  since : ∃ time ∈ copy.copiedAt, c.time ≤ time

structure Sound (s : State) (total : Token → ℕ) : Prop where
  tokens : ∀ t, total t + s.spent t = s.granted t
  single : ∀ t, s.granted t ≤ 1
  claimed : ∀ c ∈ s.claims, ∃ copy, s.copies[c.copyId]? = some copy ∧ copy.Claimed c
  positive : ∀ c ∈ s.claims, 0 ≤ c.amount
  past : ∀ c ∈ s.claims, c.time ≤ s.now
  budget : Each WithinLimit s.claims

/-- The row under a lock. -/
def State.Holds (s : State) (order : Order) (copy : CopyTrade) : Prop :=
  s.copies[order.id]? = some copy ∧ copy.status.isOpen = true ∧ 0 ≤ order.amount

/-- What is claimed of a follow, from some time on. -/
def State.claimedUsd (s : State) (id : FollowId) (start : Time) : ℚ :=
  sumSince Claim.time Claim.amount (s.claims.filter fun c => c.followId = id) start

/-- The budget that the claim has seen. -/
def State.Affords (s : State) (order : Order) (copy : CopyTrade) (follow : CopyFollow) : Prop :=
  ∃ start, start ≤ dayStart s.now ∧
    s.claimedUsd copy.followId start + order.amount ≤ follow.dailyLimitUsd

def Knows (s : State) : Proc → Prop
  | .reauthorize order | .lockCopy order => 0 ≤ order.amount
  | .lockFollow order copy => s.Holds order copy
  | .readWallet order copy follow | .readReserved order copy follow =>
    s.Holds order copy ∧ s.follows[copy.followId]? = some follow
  | .claim order copy follow => (s.Holds order copy ∧ s.follows[copy.followId]? = some follow) ∧
    s.Affords order copy follow
  | .reject id _ => ∃ copy, s.copies[id]? = some copy ∧ copy.status.isOpen = true
  | .writeCopied id | .handle id true | .writeUnknown id => id ∈ s.claims.map Claim.copyId
  | _ => True

variable {s s' : State} {p p' q : Proc} {rest : Token → ℕ} {id : CopyId}
  {f : CopyTrade → CopyTrade} {order : Order} {copy : CopyTrade} {follow : CopyFollow}

/-- What the others have locked is as it was. -/
structure Frame (s s' : State) (rest : Token → ℕ) : Prop where
  copies : ∀ id, 0 < rest (.copy id) → ∀ copy, s.copies[id]? = some copy →
    s'.copies[id]? = some copy
  follows : ∀ id, 0 < rest (.follow id) → ∀ follow, s.follows[id]? = some follow →
    s'.follows[id]? = some follow
  claims : ∀ id, 0 < rest (.follow id) →
    (s'.claims.filter fun c => c.followId = id) = s.claims.filter fun c => c.followId = id
  grows : s.claims ⊆ s'.claims
  now : s.now ≤ s'.now

lemma Frame.refl (s : State) (rest : Token → ℕ) : Frame s s rest :=
  ⟨fun _ _ _ h => h, fun _ _ _ h => h, fun _ _ => rfl, List.Subset.refl _, le_rfl⟩

lemma mem_tokens_pos {t : Token} (hq : weight q ≤ rest) (ht : t ∈ q.tokens) : 0 < rest t :=
  (List.count_pos_iff.mpr ht).trans_le (hq t)

lemma dayStart_mono {now now' : Time} (h : now ≤ now') : dayStart now ≤ dayStart now' :=
  Nat.mul_le_mul_right _ (Nat.div_le_div_right h)

lemma Frame.holds (h : Frame s s' rest) (hcopy : 0 < rest (.copy order.id))
    (hholds : s.Holds order copy) : s'.Holds order copy := by
  obtain ⟨hrow, hopen⟩ := hholds
  exact ⟨h.copies order.id hcopy copy hrow, hopen⟩

lemma Frame.mem_claims (h : Frame s s' rest) (hid : id ∈ s.claims.map Claim.copyId) :
    id ∈ s'.claims.map Claim.copyId :=
  List.map_subset _ h.grows hid

lemma Frame.affords (h : Frame s s' rest) (hfollow : 0 < rest (.follow copy.followId))
    (hbudget : s.Affords order copy follow) : s'.Affords order copy follow := by
  obtain ⟨start, hstart, hlimit⟩ := hbudget
  refine ⟨start, hstart.trans (dayStart_mono h.now), ?_⟩
  rwa [State.claimedUsd, h.claims _ hfollow]

/-- What a process knows stays true while others work. -/
lemma Frame.knows (h : Frame s s' rest) (hq : weight q ≤ rest) (hknows : Knows s q) :
    Knows s' q := by
  cases q with
  | lockFollow order copy =>
    exact h.holds (mem_tokens_pos hq List.mem_cons_self) hknows
  | readWallet order copy follow | readReserved order copy follow =>
    obtain ⟨hholds, hfollow⟩ := hknows
    have hlocked := mem_tokens_pos hq (List.mem_cons_of_mem _ List.mem_cons_self)
    exact ⟨h.holds (mem_tokens_pos hq List.mem_cons_self) hholds,
      h.follows _ hlocked follow hfollow⟩
  | claim order copy follow =>
    obtain ⟨⟨hholds, hfollow⟩, hbudget⟩ := hknows
    have hlocked := mem_tokens_pos hq (List.mem_cons_of_mem _ List.mem_cons_self)
    exact ⟨⟨h.holds (mem_tokens_pos hq List.mem_cons_self) hholds,
      h.follows _ hlocked follow hfollow⟩, h.affords hlocked hbudget⟩
  | reject id follows =>
    obtain ⟨copy, hrow, hopen⟩ := hknows
    exact ⟨copy, h.copies id (mem_tokens_pos hq List.mem_cons_self) copy hrow, hopen⟩
  | writeCopied id | writeUnknown id => exact h.mem_claims hknows
  | handle id claimed =>
    cases claimed with
    | true => exact h.mem_claims hknows
    | false => trivial
  | reauthorize order | lockCopy order => exact hknows
  | _ => trivial

/-- What a step keeps. -/
structure Kept (s : State) (rest : Token → ℕ) (s' : State) (p' : Proc) : Prop where
  sound : Sound s' (weight p' + rest)
  knows : Knows s' p'
  frame : Frame s s' rest

namespace Sound

lemma granted_pos (h : Sound s (weight p + rest)) {t : Token} (ht : 0 < rest t)
    (hspent : s.spent t = 0) : 0 < s.granted t := by
  have htokens := h.tokens t
  simp only [Pi.add_apply] at htokens
  omega

/-- Nobody else has what a process has. -/
lemma rest_eq_zero (h : Sound s (weight p + rest)) {t : Token} (ht : t ∈ p.tokens) :
    rest t = 0 := by
  have htokens := h.tokens t
  have hsingle := h.single t
  have hpos : 0 < weight p t := List.count_pos_iff.mpr ht
  simp only [Pi.add_apply] at htokens
  omega

/-- Only the process moves on. -/
lemma move (h : Sound s (weight p + rest)) (htokens : p'.tokens = p.tokens) (hknows : Knows s p') :
    Kept s rest s p' where
  sound := by
    have hweight : weight p' = weight p := funext fun t => congrArg (List.count t) htokens
    rwa [hweight]
  knows := hknows
  frame := Frame.refl s rest

/-- A write to a row that nobody has locked. -/
lemma write (h : Sound s (weight p + rest)) (hlocked : id ∉ s.lockedCopies)
    (hclaimed : ∀ copy, ∀ c ∈ s.claims, c.copyId = id → copy.Claimed c → (f copy).Claimed c)
    (htokens : p'.tokens = p.tokens) (hknows : Knows (s.update id f) p') :
    Kept s rest (s.update id f) p' where
  sound := by
    have hweight : weight p' = weight p := funext fun t => congrArg (List.count t) htokens
    rw [hweight]
    refine ⟨h.tokens, h.single, fun c hc => ?_, h.positive, h.past, h.budget⟩
    obtain ⟨copy, hrow, hcopy⟩ := h.claimed c hc
    rcases eq_or_ne c.copyId id with heq | hne
    · exact ⟨f copy, by simp [State.update, ← heq, hrow], hclaimed copy c hc heq hcopy⟩
    · exact ⟨copy, by simp [State.update, hne.symm, hrow], hcopy⟩
  knows := hknows
  frame := by
    refine ⟨fun i hi row hrow => ?_, fun _ _ _ h => h, fun _ _ => rfl, List.Subset.refl _, le_rfl⟩
    have hne : id ≠ i := by
      rintro rfl
      exact hlocked (List.count_pos_iff.mp (h.granted_pos hi rfl))
    simp [State.update, hne, hrow]

/-- What is granted changes by what the process gets and gives back. -/
lemma retoken (h : Sound s (weight p + rest)) (hspent : s'.spent = s.spent)
    (hgranted : ∀ t, s'.granted t + p.tokens.count t = s.granted t + p'.tokens.count t)
    (t : Token) :
    (weight p' + rest) t + s'.spent t = s'.granted t := by
  have htokens := h.tokens t
  have hgranted := hgranted t
  rw [hspent]
  simp only [Pi.add_apply, weight] at htokens ⊢
  omega

/-- A process that gets its rows is the only one that has them. -/
lemma relock (h : Sound s (weight p + rest)) {lockedCopies : List CopyId}
    {lockedFollows : List FollowId}
    (hgranted : ∀ t, State.granted { s with
      lockedCopies := lockedCopies, lockedFollows := lockedFollows } t + p.tokens.count t =
        s.granted t + p'.tokens.count t)
    (hsingle : lockedCopies.Nodup ∧ lockedFollows.Nodup) (hknows : Knows s p') :
    Kept s rest { s with lockedCopies := lockedCopies, lockedFollows := lockedFollows } p' where
  sound := by
    refine ⟨h.retoken rfl hgranted, fun t => ?_, h.claimed, h.positive, h.past, h.budget⟩
    cases t with
    | copy id   => exact List.nodup_iff_count_le_one.mp hsingle.1 id
    | follow id => exact List.nodup_iff_count_le_one.mp hsingle.2 id
    | swap id   => exact h.single (.swap id)
  knows := by cases p' <;> exact hknows
  frame := ⟨fun _ _ _ h => h, fun _ _ _ h => h, fun _ _ => rfl, List.Subset.refl _, le_rfl⟩

lemma nodup_copies {total : Token → ℕ} (h : Sound s total) : s.lockedCopies.Nodup :=
  List.nodup_iff_count_le_one.mpr fun id => h.single (.copy id)

lemma nodup_follows {total : Token → ℕ} (h : Sound s total) : s.lockedFollows.Nodup :=
  List.nodup_iff_count_le_one.mpr fun id => h.single (.follow id)

lemma nodup_claims {total : Token → ℕ} (h : Sound s total) : (s.claims.map Claim.copyId).Nodup :=
  List.nodup_iff_count_le_one.mpr fun id => h.single (.swap id)

lemma lockCopy (h : Sound s (weight (.lockCopy order) + rest)) (hfree : order.id ∉ s.lockedCopies)
    (hholds : s.Holds order copy) :
    Kept s rest { s with lockedCopies := order.id :: s.lockedCopies } (.lockFollow order copy) := by
  refine h.relock (fun t => ?_) ⟨List.nodup_cons.mpr ⟨hfree, h.nodup_copies⟩, h.nodup_follows⟩
    hholds
  cases t <;> simp [State.granted, Proc.tokens, List.count_cons]

lemma lockFollow (h : Sound s (weight (.lockFollow order copy) + rest))
    (hfree : copy.followId ∉ s.lockedFollows)
    (htokens : p'.tokens = [.copy order.id, .follow copy.followId]) (hknows : Knows s p') :
    Kept s rest { s with lockedFollows := copy.followId :: s.lockedFollows } p' := by
  refine h.relock (fun t => ?_) ⟨h.nodup_copies, List.nodup_cons.mpr ⟨hfree, h.nodup_follows⟩⟩
    hknows
  rw [htokens]
  cases t <;> simp [State.granted, Proc.tokens, List.count_cons]

@[simp] lemma count_follows (follows : List FollowId) (i : FollowId) :
    (follows.map Token.follow).count (.follow i) = follows.count i :=
  List.count_map_of_injective _ _ (fun _ _ => Token.follow.inj) _

@[simp] lemma count_follows_copy (follows : List FollowId) (i : CopyId) :
    (follows.map Token.follow).count (.copy i) = 0 :=
  List.count_eq_zero.mpr (by simp)

@[simp] lemma count_follows_swap (follows : List FollowId) (i : CopyId) :
    (follows.map Token.follow).count (.swap i) = 0 :=
  List.count_eq_zero.mpr (by simp)

lemma lockFollows {traderId : UserId} {swap : Swap} {walletPnlPct : Option ℚ}
    {followers : List FollowId}
    (h : Sound s (weight (.lockFollows traderId swap walletPnlPct) + rest))
    (hfree : ∀ id ∈ followers, id ∉ s.lockedFollows) (hfollowers : followers.Nodup) :
    Kept s rest { s with lockedFollows := followers ++ s.lockedFollows }
      (.record swap walletPnlPct followers followers []) := by
  have hnodup : (followers ++ s.lockedFollows).Nodup :=
    List.nodup_append'.mpr ⟨hfollowers, h.nodup_follows, hfree⟩
  refine h.relock (fun t => ?_) ⟨h.nodup_copies, hnodup⟩ trivial
  cases t with
  | follow id =>
    simp only [State.granted, Proc.tokens, List.count_append, count_follows, List.count_nil]
    omega
  | copy id => simp only [State.granted, Proc.tokens, count_follows_copy, List.count_nil]
  | swap id => simp only [State.granted, Proc.tokens, count_follows_swap, List.count_nil]

lemma not_claimed {total : Token → ℕ} (h : Sound s total) (hrow : s.copies[id]? = some copy)
    (hopen : copy.status.isOpen = true) : id ∉ s.claims.map Claim.copyId := by
  intro hid
  obtain ⟨c, hc, rfl⟩ := List.mem_map.mp hid
  obtain ⟨copy', hrow', hclaimed⟩ := h.claimed c hc
  obtain rfl := Option.some.inj (hrow.symm.trans hrow')
  have htaken := hclaimed.taken
  revert hopen htaken
  cases copy.status <;> decide

/-- The rows that a process gives back are its own. -/
lemma count_le_granted (h : Sound s (weight p + rest)) {t : Token} (hspent : s.spent t = 0) :
    p.tokens.count t ≤ s.granted t := by
  have htokens := h.tokens t
  simp only [Pi.add_apply, weight] at htokens
  omega

lemma reject {follows : List FollowId} (h : Sound s (weight (.reject id follows) + rest))
    (hrow : s.copies[id]? = some copy) (hopen : copy.status.isOpen = true) :
    Kept s rest ((s.update id fun c => { c with status := .failed }).release [id] follows)
      .idle where
  sound := by
    have hgranted : ∀ t, State.granted ((s.update id fun c => { c with status := .failed }).release
        [id] follows) t + (Proc.reject id follows).tokens.count t = s.granted t := by
      intro t
      cases t with
      | copy i =>
        have hle := h.count_le_granted (t := .copy i) rfl
        simp only [Proc.tokens, State.granted, List.count_cons, count_follows_copy] at hle
        simp only [State.granted, State.release, State.update, Proc.tokens, List.count_diff,
          List.count_cons, List.count_nil, count_follows_copy]
        simp only [beq_iff_eq, Token.copy.injEq] at hle ⊢
        omega
      | follow i =>
        have hle := h.count_le_granted (t := .follow i) rfl
        simp only [Proc.tokens, State.granted, List.count_cons, count_follows] at hle
        simp only [State.granted, State.release, State.update, Proc.tokens, List.count_diff,
          List.count_cons, count_follows]
        simp only [beq_iff_eq, reduceCtorEq, if_false] at hle ⊢
        omega
      | swap i => simp [State.granted, State.release, State.update, Proc.tokens]
    refine ⟨h.retoken rfl hgranted, fun t => ?_, fun c hc => ?_, h.positive, h.past, h.budget⟩
    · have hsingle := h.single t
      have hgranted := hgranted t
      omega
    · obtain ⟨copy', hrow', hclaimed⟩ := h.claimed c hc
      have hne : id ≠ c.copyId := by
        rintro rfl
        exact h.not_claimed hrow hopen (List.mem_map_of_mem hc)
      exact ⟨copy', by simp [State.release, State.update, hne, hrow'], hclaimed⟩
  knows := trivial
  frame := by
    refine ⟨fun i hi row hrow => ?_, fun _ _ _ h => h, fun _ _ => rfl, List.Subset.refl _, le_rfl⟩
    have hne : id ≠ i := by
      rintro rfl
      exact hi.ne' (h.rest_eq_zero List.mem_cons_self)
    simp [State.release, State.update, hne, hrow]

/-- What is claimed is among what is reserved. -/
lemma claimedUsd_le {total : Token → ℕ} (h : Sound s total) {followId : FollowId} {start : Time}
    {other : CopyId → Bool} (hother : ∀ c ∈ s.claims, other c.copyId = true)
    (hnonneg : ∀ c ∈ s.copies, c.followId = followId → 0 ≤ c.copyAmountUsd) :
    s.claimedUsd followId start ≤ s.reservedUsd followId other start := by
  refine Rows.sum_le_sum_filter (show (List.map Claim.copyId _).Nodup from ?_) (fun c hc => ?_)
    (fun row hrow hcounts => ?_)
  · exact h.nodup_claims.sublist ((List.filter_sublist.trans List.filter_sublist).map _)
  · obtain ⟨hc, hstart⟩ := List.mem_filter.mp hc
    obtain ⟨hc, hfollow⟩ := List.mem_filter.mp hc
    obtain ⟨copy, hrow, hclaimed⟩ := h.claimed c hc
    obtain ⟨time, htime, hsince⟩ := hclaimed.since
    have hreserves : copy.reserves start = true := by
      have htaken := hclaimed.taken
      have hcopied : start ≤ time := (of_decide_eq_true hstart).trans hsince
      unfold CopyTrade.reserves
      cases hstatus : copy.status with
      | executing | copied | outcome_unknown => exact decide_eq_true ⟨time, htime, hcopied⟩
      | pending | auto_pending | notified | skipped | failed =>
        rw [hstatus] at htaken
        cases htaken
    refine ⟨(copy, c.copyId), by simp [hrow], ?_, hclaimed.amount⟩
    simp [hclaimed.follow, of_decide_eq_true hfollow, hother c hc, hreserves]
  · exact hnonneg row.1 (List.fst_mem_of_mem_zipIdx hrow) hcounts.1

/-- The write of the claim. -/
lemma claim (h : Sound s (weight (.claim order copy follow) + rest))
    (hknows : Knows s (.claim order copy follow)) :
    Kept s rest (s.claim order copy follow) (.executeSwap order.id) := by
  obtain ⟨⟨⟨hrow, hopen, hpositive⟩, hfollow⟩, start, hstart, hlimit⟩ := hknows
  have hnew := h.not_claimed hrow hopen
  have hgranted : ∀ t, (s.claim order copy follow).granted t +
      (Proc.claim order copy follow).tokens.count t =
        s.granted t + (Proc.executeSwap order.id).tokens.count t := by
    intro t
    cases t with
    | copy i =>
      have hle := h.count_le_granted (t := .copy i) rfl
      simp only [Proc.tokens, State.granted, List.count_cons, List.count_nil, beq_iff_eq,
        Token.copy.injEq, reduceCtorEq, if_false] at hle
      simp only [State.claim, State.granted, State.release, State.update, Proc.tokens,
        List.count_diff, List.count_cons, List.count_nil, beq_iff_eq, Token.copy.injEq,
        reduceCtorEq, if_false]
      omega
    | follow i =>
      have hle := h.count_le_granted (t := .follow i) rfl
      simp only [Proc.tokens, State.granted, List.count_cons, List.count_nil, beq_iff_eq,
        Token.follow.injEq, reduceCtorEq, if_false] at hle
      simp only [State.claim, State.granted, State.release, State.update, Proc.tokens,
        List.count_diff, List.count_cons, List.count_nil, beq_iff_eq, Token.follow.injEq,
        reduceCtorEq, if_false]
      omega
    | swap i =>
      simp [State.claim, State.granted, State.release, State.update, Proc.tokens, List.count_cons]
  refine ⟨⟨h.retoken rfl hgranted, fun t => ?_, fun c hc => ?_, fun c hc => ?_, fun c hc => ?_, ?_⟩,
    trivial, ⟨fun i hi row hrow => ?_, fun _ _ _ h => h, fun i hi => ?_,
      List.subset_append_left _ _, le_rfl⟩⟩
  · have hsingle := h.single t
    have hgranted := hgranted t
    cases t with
    | copy i | follow i => simp [Proc.tokens] at hgranted; omega
    | swap i =>
      rcases eq_or_ne i order.id with rfl | hne
      · have hzero : s.granted (.swap order.id) = 0 := List.count_eq_zero.mpr hnew
        simp [Proc.tokens] at hgranted
        omega
      · simp [Proc.tokens, hne.symm] at hgranted
        omega
  · rcases List.mem_append.mp hc with hc | hc
    · obtain ⟨copy', hrow', hclaimed⟩ := h.claimed c hc
      have hne : order.id ≠ c.copyId := fun heq => hnew (heq ▸ List.mem_map_of_mem hc)
      exact ⟨copy', by simp [State.claim, State.release, State.update, hne, hrow'], hclaimed⟩
    · obtain rfl := List.mem_singleton.mp hc
      exact ⟨{ copy with
          copyAmountUsd := order.amount
          status := .executing
          copiedAt := some s.now },
        by simp [State.claim, State.release, State.update, hrow],
        ⟨rfl, rfl, rfl, s.now, rfl, le_rfl⟩⟩
  · rcases List.mem_append.mp hc with hc | hc
    · exact h.positive c hc
    · rwa [List.mem_singleton.mp hc]
  · rcases List.mem_append.mp hc with hc | hc
    · exact h.past c hc
    · rw [List.mem_singleton.mp hc]
      exact le_rfl
  · refine each_concat.mpr ⟨h.budget, ?_⟩
    have hanti : s.claimedUsd copy.followId (dayStart s.now) ≤ s.claimedUsd copy.followId start :=
      sumSince_anti_of_nonneg (fun c hc => h.positive c (List.mem_filter.mp hc).1) hstart
    exact (add_le_add_left hanti _).trans hlimit
  · have hne : order.id ≠ i := by
      rintro rfl
      exact hi.ne' (h.rest_eq_zero List.mem_cons_self)
    simp [State.claim, State.release, State.update, hne, hrow]
  · have hne : copy.followId ≠ i := by
      rintro rfl
      exact hi.ne' (h.rest_eq_zero (List.mem_cons_of_mem _ List.mem_cons_self))
    simp [State.claim, State.release, State.update, List.filter_append, hne]

/-- The one call that a claim is for. -/
lemma swap (h : Sound s (weight (.executeSwap id) + rest)) (htokens : p'.tokens = [])
    (hknows : id ∈ s.claims.map Claim.copyId → Knows s p') :
    Kept s rest { s with swaps := s.swaps ++ [id] } p' where
  sound := by
    refine ⟨fun t => ?_, h.single, h.claimed, h.positive, h.past, h.budget⟩
    have hold := h.tokens t
    have hweight : weight p' t = 0 := by rw [weight, htokens, List.count_nil]
    simp only [Pi.add_apply, weight, Proc.tokens] at hold
    rw [Pi.add_apply, hweight]
    cases t with
    | copy i | follow i => simpa [State.spent, State.granted] using hold
    | swap i =>
      simp only [State.spent, State.granted, List.count_append, List.count_cons, List.count_nil,
        beq_iff_eq, Token.swap.injEq] at hold ⊢
      omega
  knows := by
    have hpos : 0 < s.granted (.swap id) := by
      have htokens' := h.tokens (.swap id)
      simp only [Pi.add_apply, weight, Proc.tokens, List.count_cons_self] at htokens'
      omega
    have hstate := hknows (List.count_pos_iff.mp hpos)
    cases p' <;> exact hstate
  frame := ⟨fun _ _ _ h => h, fun _ _ _ h => h, fun _ _ => rfl, List.Subset.refl _, le_rfl⟩

/-- The commit of `record_trade`. -/
lemma insert {swap : Swap} {walletPnlPct : Option ℚ} {locked : List FollowId}
    {inserts : List CopyTrade} (h : Sound s (weight (.record swap walletPnlPct locked [] inserts) +
      rest)) :
    Kept s rest (State.release { s with copies := s.copies ++ inserts } [] locked) .idle where
  sound := by
    have hgranted : ∀ t, State.granted (State.release { s with copies := s.copies ++ inserts } []
        locked) t + (locked.map Token.follow).count t = s.granted t := by
      intro t
      cases t with
      | follow i =>
        have hle := h.count_le_granted (t := .follow i) rfl
        simp only [Proc.tokens, State.granted, count_follows] at hle
        simp only [State.granted, State.release, List.count_diff, count_follows]
        omega
      | copy i | swap i => simp [State.granted, State.release]
    refine ⟨h.retoken rfl hgranted, fun t => ?_, fun c hc => ?_, h.positive, h.past, h.budget⟩
    · have hsingle := h.single t
      have hgranted := hgranted t
      omega
    · obtain ⟨copy', hrow', hclaimed⟩ := h.claimed c hc
      have hlt := (List.getElem?_eq_some_iff.mp hrow').1
      exact ⟨copy', by simp [State.release, List.getElem?_append_left hlt, hrow'], hclaimed⟩
  knows := trivial
  frame := by
    refine ⟨fun i _ row hrow => ?_, fun _ _ _ h => h, fun _ _ => rfl, List.Subset.refl _, le_rfl⟩
    exact (List.getElem?_append_left (List.getElem?_eq_some_iff.mp hrow).1).trans hrow

end Sound

/-! ### Steps -/

lemma copyOf_eq_some {copierId : UserId} (h : s.copyOf copierId id = some copy) :
    s.copies[id]? = some copy :=
  (Option.filter_eq_some_iff.mp h).1

/-- The first step of a call holds nothing yet. -/
lemma call_kept (h : Sound s (weight .idle + rest)) (c : Call) : Kept s rest s (call s c) := by
  have hcall : (call s c).tokens = [] ∧ Knows s (call s c) := by
    cases c with
    | recordTrade =>
      simp only [call]
      split_ifs <;> exact ⟨rfl, trivial⟩
    | executeCopy | skipCopy | markNotified | executePaperCopy =>
      simp only [call]
      split
      · split_ifs <;> exact ⟨rfl, trivial⟩
      · exact ⟨rfl, trivial⟩
  exact h.move hcall.1 hcall.2

lemma write_ok {r : State × Proc} (h : s.write id f p = .ok r) :
    id ∉ s.lockedCopies ∧ r = (s.update id f, p) := by
  unfold State.write at h
  split_ifs at h with hlocked
  cases h
  exact ⟨hlocked, rfl⟩

lemma nodup_followers (s : State) (traderId : UserId) : (s.followers traderId).Nodup :=
  Rows.nodup_positions _ _

theorem step_kept {answer : Answer} (h : Sound s (weight p + rest)) (hknows : Knows s p)
    (hcareful : Careful s p answer) (hstep : step s p answer = .ok (s', p')) :
    Kept s rest s' p' := by
  cases p with
  | idle =>
    cases answer with
    | calls c =>
      cases hstep
      exact call_kept h _
    | _ => cases hstep
  -- the checks before the claim
  | readFollow copierId id copy =>
    cases answer with
    | ok =>
      dsimp only [step] at hstep
      cases hstep
      cases s.follows[copy.followId]? with
      | some follow =>
        dsimp only
        split_ifs
        · exact h.move rfl trivial
        · exact h.move rfl trivial
      | none => exact h.move rfl trivial
    | _ => cases hstep
  | readWallets order =>
    cases answer with
    | ok | refused =>
      cases hstep
      exact h.move rfl trivial
    | _ => cases hstep
  | authorize order =>
    cases answer with
    | ok | refused | raises =>
      cases hstep
      exact h.move rfl trivial
    | _ => cases hstep
  | getQuote order =>
    cases answer with
    | quoted notional =>
      dsimp only [step] at hstep
      cases hstep
      split_ifs with hnotional
      · exact h.move rfl trivial
      · exact h.move rfl (le_of_lt (not_le.mp hnotional))
      · exact h.move rfl (le_of_lt (not_le.mp hnotional))
    | refused | raises =>
      cases hstep
      exact h.move rfl trivial
    | _ => cases hstep
  | reauthorize order =>
    cases answer with
    | ok =>
      cases hstep
      exact h.move rfl hknows
    | refused | raises =>
      cases hstep
      exact h.move rfl trivial
    | _ => cases hstep
  -- the writes without a lock
  | markFailed id =>
    cases answer with
    | ok =>
      dsimp only [step] at hstep
      cases hstep
      split_ifs
      · exact h.move rfl trivial
      · exact h.move rfl trivial
    | _ => cases hstep
  | write id status =>
    cases answer with
    | ok =>
      obtain ⟨hlocked, heq⟩ := write_ok hstep
      cases heq
      exact h.write hlocked (fun _ c hc hid => absurd (hid ▸ List.mem_map_of_mem hc)
        (hcareful.1 id rfl)) rfl trivial
    | _ => cases hstep
  | writePaper id copyAmount =>
    cases answer with
    | ok =>
      obtain ⟨hlocked, heq⟩ := write_ok hstep
      cases heq
      exact h.write hlocked (fun _ c hc hid => absurd (hid ▸ List.mem_map_of_mem hc)
        (hcareful.1 id rfl)) rfl trivial
    | _ => cases hstep
  -- the claim
  | lockCopy order =>
    cases answer with
    | ok =>
      dsimp only [step] at hstep
      split_ifs at hstep with hlocked
      cases hcopy : s.copyOf order.copierId order.id with
      | none =>
        simp only [hcopy] at hstep
        cases hstep
        exact h.move rfl trivial
      | some copy =>
        simp only [hcopy] at hstep
        split_ifs at hstep with hopen
        · cases hstep
          exact h.lockCopy hlocked ⟨copyOf_eq_some hcopy, hopen, hknows⟩
        · cases hstep
          exact h.move rfl trivial
    | raises =>
      cases hstep
      exact h.move rfl trivial
    | _ => cases hstep
  | lockFollow order copy =>
    cases answer with
    | ok =>
      dsimp only [step] at hstep
      split_ifs at hstep with hlocked
      cases hfollow : s.follows[copy.followId]? with
      | none =>
        simp only [hfollow] at hstep
        cases hstep
        exact h.move rfl ⟨copy, hknows.1, hknows.2.1⟩
      | some follow =>
        simp only [hfollow] at hstep
        split_ifs at hstep
        · cases hstep
          exact h.lockFollow hlocked rfl ⟨hknows, hfollow⟩
        · cases hstep
          exact h.lockFollow hlocked rfl ⟨copy, hknows.1, hknows.2.1⟩
    | _ => cases hstep
  | readWallet order copy follow =>
    cases answer with
    | ok =>
      dsimp only [step] at hstep
      cases hstep
      split_ifs
      · exact h.move rfl hknows
      · exact h.move rfl ⟨copy, hknows.1.1, hknows.1.2.1⟩
    | refused =>
      cases hstep
      exact h.move rfl ⟨copy, hknows.1.1, hknows.1.2.1⟩
    | _ => cases hstep
  | readReserved order copy follow =>
    cases answer with
    | ok =>
      dsimp only [step] at hstep
      cases hstep
      split_ifs with hlimit
      · exact h.move rfl ⟨copy, hknows.1.1, hknows.1.2.1⟩
      · refine h.move rfl ⟨hknows, dayStart s.now, le_rfl, ?_⟩
        have hother : ∀ c ∈ s.claims, decide (c.copyId ≠ order.id) = true := by
          refine fun c hc => decide_eq_true fun heq => ?_
          exact h.not_claimed hknows.1.1 hknows.1.2.1 (heq ▸ List.mem_map_of_mem hc)
        exact (add_le_add_left (h.claimedUsd_le hother (hcareful.2 copy.followId rfl)) _).trans
          (not_lt.mp hlimit)
    | _ => cases hstep
  | reject id follows =>
    cases answer with
    | ok =>
      obtain ⟨copy, hrow, hopen⟩ := hknows
      cases hstep
      exact h.reject hrow hopen
    | _ => cases hstep
  | claim order copy follow =>
    cases answer with
    | ok =>
      cases hstep
      exact h.claim hknows
    | _ => cases hstep
  -- the outcome
  | executeSwap id =>
    cases answer with
    | ok | raises =>
      cases hstep
      exact h.swap rfl fun h => h
    | _ => cases hstep
  | writeCopied id =>
    cases answer with
    | ok =>
      obtain ⟨hlocked, heq⟩ := write_ok hstep
      cases heq
      refine h.write hlocked (fun copy c hc _ hclaimed => ?_) rfl trivial
      exact ⟨hclaimed.follow, rfl, hclaimed.amount, s.now, rfl, h.past c hc⟩
    | raises =>
      cases hstep
      exact h.move rfl hknows
    | _ => cases hstep
  | handle id claimed =>
    cases answer with
    | ok =>
      dsimp only [step] at hstep
      cases hstep
      cases s.copies[id]? with
      | some copy =>
        cases claimed with
        | true =>
          dsimp only
          rw [if_pos rfl]
          split_ifs
          · exact h.move rfl hknows
          · exact h.move rfl trivial
        | false => exact h.move rfl trivial
      | none => cases claimed <;> exact h.move rfl trivial
    | _ => cases hstep
  | writeUnknown id =>
    cases answer with
    | ok =>
      obtain ⟨hlocked, heq⟩ := write_ok hstep
      cases heq
      refine h.write hlocked (fun copy c hc _ hclaimed => ?_) rfl trivial
      exact ⟨hclaimed.follow, rfl, hclaimed.amount, hclaimed.since⟩
    | _ => cases hstep
  -- `record_trade`
  | lockFollows traderId swap walletPnlPct =>
    cases answer with
    | ok =>
      dsimp only [step] at hstep
      split_ifs at hstep with hlocked
      cases hstep
      exact h.lockFollows (fun id hid hmem => hlocked ⟨id, hid, hmem⟩) (nodup_followers s _)
    | _ => cases hstep
  | record swap walletPnlPct locked todo inserts =>
    cases answer with
    | ok =>
      cases todo with
      | nil =>
        cases hstep
        exact h.insert
      | cons id todo =>
        dsimp only [step] at hstep
        cases hstep
        cases s.signal swap walletPnlPct id with
        | some insert => exact h.move rfl trivial
        | none => exact h.move rfl trivial
    | _ => cases todo <;> cases hstep
  | readExisting swap walletPnlPct locked insert todo inserts =>
    cases answer with
    | ok =>
      cases hstep
      exact h.move rfl trivial
    | _ => cases hstep

/-- What others change outside the service. -/
lemma environment_kept {event : Event} {total : Token → ℕ} (h : Sound s total)
    (henvironment : environment s event = .ok s') : Sound s' total ∧ Frame s s' total := by
  cases event with
  | elapse duration =>
    cases henvironment
    exact ⟨⟨h.tokens, h.single, h.claimed, h.positive,
        fun c hc => (h.past c hc).trans (Nat.le_add_right _ _), h.budget⟩,
      ⟨fun _ _ _ h => h, fun _ _ _ h => h, fun _ _ => rfl, List.Subset.refl _,
        Nat.le_add_right _ _⟩⟩
  | followTrader follow =>
    cases henvironment
    refine ⟨⟨h.tokens, h.single, h.claimed, h.positive, h.past, h.budget⟩,
      ⟨fun _ _ _ h => h, fun i _ row hrow => ?_, fun _ _ => rfl, List.Subset.refl _, le_rfl⟩⟩
    exact (List.getElem?_append_left (List.getElem?_eq_some_iff.mp hrow).1).trans hrow
  | updateFollow id follow =>
    simp only [environment] at henvironment
    split_ifs at henvironment with hlocked hlt
    cases henvironment
    refine ⟨⟨h.tokens, h.single, h.claimed, h.positive, h.past, h.budget⟩,
      ⟨fun _ _ _ h => h, fun i hi row hrow => ?_, fun _ _ => rfl, List.Subset.refl _, le_rfl⟩⟩
    have hne : id ≠ i := by
      rintro rfl
      have htokens := h.tokens (.follow id)
      have hzero : s.granted (.follow id) = 0 := List.count_eq_zero.mpr hlocked
      omega
    exact (List.getElem?_set_ne hne).trans hrow

/-! ### Runs -/

theorem program_inductive : program.Inductive weight Sound Knows
    (fun s _ p answer => Careful s p answer) fun _ _ _ => True where
  step h hknows hcareful hstep :=
    let hkept := step_kept h hknows hcareful hstep
    ⟨hkept.sound, hkept.knows⟩
  stable h hknows hcareful hstep hq hknows' :=
    (step_kept h hknows hcareful hstep).frame.knows hq hknows'
  environment h _ henvironment :=
    let hkept := environment_kept h henvironment
    ⟨hkept.1, fun _ hq hknows => hkept.2.knows hq hknows⟩

lemma invariant_initial (n : ℕ) (now : Time) :
    Program.Invariant weight Sound Knows (initial n now) where
  shared := by
    refine ⟨fun t => ?_, fun t => ?_, nofun, nofun, nofun, each_nil⟩
    · have hzero : (initial n now).total weight = 0 := Finset.sum_eq_zero fun _ _ => rfl
      rw [hzero]
      cases t <;> rfl
    · cases t <;> exact Nat.zero_le 1
  knows _ := trivial

lemma Sound.claimedOnce {total : Token → ℕ} (h : Sound s total) : ClaimedOnce s where
  once := by
    refine List.nodup_iff_count_le_one.mpr fun id => ?_
    have htokens := h.tokens (.swap id)
    have hsingle := h.single (.swap id)
    simp only [State.spent] at htokens
    omega
  claimed id hid := by
    have htokens := h.tokens (.swap id)
    have hpos : 0 < s.swaps.count id := List.count_pos_iff.mpr hid
    simp only [State.spent, State.granted] at htokens
    exact List.count_pos_iff.mp (by omega)
  taken c hc := by
    obtain ⟨copy, hrow, hclaimed⟩ := h.claimed c hc
    exact ⟨copy, hrow, hclaimed.taken⟩
  budget := h.budget

/-- Along a run in which no unlocked session writes to a claimed copy, and no negative amount is
counted. -/
theorem claimedOnce_of_careful (n : ℕ) (now : Time) (actions : List (Program.Action n Answer Event))
    (hcareful : (program.machine n).Along
      (Program.Meets weight (fun s _ p answer => Careful s p answer) fun _ _ _ => True)
      (initial n now) actions) :
    ClaimedOnce ((program.machine n).run (initial n now) actions).shared :=
  (program_inductive.run actions (invariant_initial n now) hcareful).shared.claimedOnce

/-- User 2 follows user 1 with 10 USD a trade. -/
def tenDollars (mode : CopyMode) : CopyFollow :=
  ⟨2, 1, true, mode, .fixed, 10, 100, 100, 500, 0, none, none, none, 1, []⟩

/-- The signal of a trade of user 1. -/
def signalled {n : ℕ} (mode : CopyMode) (i : Fin n) : List (Program.Action n Answer Event) :=
  [.environment (.followTrader (tenDollars mode)),
    .take i (.calls (.recordTrade 1 ⟨7, "base", "base", 1000⟩ none)), .take i .ok, .take i .ok,
    .take i .ok, .take i .ok]

/-- `execute_copy` of the first copy, up to the answer of `execute_swap`. -/
def executed {n : ℕ} (i : Fin n) (checks : List Answer) : List (Program.Action n Answer Event) :=
  List.map (.take i) ([Answer.calls (.executeCopy 2 0), .ok, .ok, .ok, .quoted 10] ++ checks ++
    [.ok, .ok, .ok, .ok, .ok, .ok])

theorem auto_copy_claimedOnce : ClaimedOnce ((program.machine 1).run (initial 1 0)
    (signalled .auto 0 ++ executed 0 [.ok] ++ [.take 0 .ok])).shared :=
  claimedOnce_of_careful 1 0 _ (by decide +kernel)

/-- The same trade is handled twice; one of the two calls of `mark_notified` has read the copy as
pending before it is notified, executed and copied, and writes after it. -/
theorem reopened_copy_is_executed_twice :
    ¬ ∀ (n : ℕ) (now : Time) (actions : List (Program.Action n Answer Event)),
      ClaimedOnce ((program.machine n).run (initial n now) actions).shared := by
  intro h
  have honce := (h 2 0 (signalled .notify 0 ++
    [.take 0 (.calls (.markNotified 2 0)), .take 1 (.calls (.markNotified 2 0)), .take 1 .ok] ++
    executed 1 [] ++ [.take 1 .ok, .take 0 .ok] ++ executed 1 [])).once
  revert honce
  decide +kernel

end Suwappu.CopyService
