import Suwappu.Memberships.Soulbound

/-!
# What a membership is worth

Unexpired time is worth what it was bought at. `value_backed`: never more than what was paid and
granted. `purchase_conserves`: a purchase adds its price, up to rounding. `subscribe_ok_iff`: it
goes through unless one of its checks or the payment fails, so the arithmetic never does.
-/

namespace Suwappu.Memberships

open Checked

variable {Digest : Type} [DecidableEq Digest] {keccak : Keccak Digest} {s s' : Storage}
  {w w' : World Digest} {member a : Address} {m m' : Membership} {now newPrice duration : ℕ}
  {tier : Tier} {allowClamp : Bool}

/-! ### Time as value -/

/-- Unexpired paid time, in seconds. -/
def Membership.remaining (m : Membership) (now : ℕ) : ℕ :=
  if m.tier = .Free then 0 else m.expiresAt - now

/-- What `tier` gets of it. -/
def Membership.kept (m : Membership) (now : ℕ) (tier : Tier) (newPrice : ℕ) : ℕ :=
  if m.tier = tier then m.remaining now else m.value now / newPrice

def Membership.keptValue (m : Membership) (now : ℕ) (tier : Tier) (newPrice : ℕ) : ℕ :=
  if m.tier = tier then m.value now else m.value now / newPrice * newPrice

/-- Paid time is not far ahead, and was bought at a price in range. -/
def Membership.Sound (m : Membership) (now : ℕ) : Prop :=
  m.tier ≠ .Free → MIN_PRICE ≤ m.pricePaidPerPeriod ∧ m.pricePaidPerPeriod ≤ MAX_PRICE ∧
    m.expiresAt ≤ now + MAX_TERM

lemma Membership.Sound.mono (h : m.Sound now) {now' : ℕ} (hle : now ≤ now') : m.Sound now' :=
  fun htier => ⟨(h htier).1, (h htier).2.1, (h htier).2.2.trans (Nat.add_le_add_right hle _)⟩

lemma Membership.value_mono {now' : ℕ} (hle : now ≤ now') : m.value now' ≤ m.value now := by
  unfold value
  split_ifs
  · exact le_rfl
  · exact Nat.mul_le_mul_right _ (Nat.sub_le_sub_left hle _)

lemma Membership.value_of_ne (h : m.tier ≠ .Free) :
    m.value now = (m.expiresAt - now) * m.pricePaidPerPeriod := if_neg h

lemma Membership.kept_same (hsame : m.tier = tier) (htier : tier ≠ .Free) :
    m.kept now tier newPrice = m.expiresAt - now := by
  rw [kept, if_pos hsame, remaining, if_neg (hsame ▸ htier)]

lemma Membership.kept_expired (h : m.expiresAt ≤ now) : m.kept now tier newPrice = 0 := by
  unfold kept remaining value
  rw [Nat.sub_eq_zero_of_le h, Nat.zero_mul, ite_self, Nat.zero_div, ite_self]

lemma Membership.remaining_le (h : m.Sound now) : m.remaining now ≤ MAX_TERM := by
  unfold remaining
  split_ifs with htier
  · exact Nat.zero_le _
  · exact Nat.sub_le_iff_le_add'.mpr (h htier).2.2

/-- The value is between the seconds at the lowest price and at the highest one. -/
lemma Membership.value_bounds (h : m.Sound now) :
    m.remaining now * MIN_PRICE ≤ m.value now ∧ m.value now ≤ m.remaining now * MAX_PRICE := by
  unfold remaining value
  split_ifs with htier
  · exact ⟨(Nat.zero_mul _).le, Nat.zero_le _⟩
  · exact ⟨Nat.mul_le_mul_left _ (h htier).1, Nat.mul_le_mul_left _ (h htier).2.1⟩

lemma Membership.value_le (h : m.Sound now) : m.value now ≤ MAX_TERM * MAX_PRICE :=
  (value_bounds h).2.trans (Nat.mul_le_mul_right _ (remaining_le h))

lemma Membership.kept_bounds (tier : Tier) (h : m.Sound now)
    (hprice : MIN_PRICE ≤ newPrice ∧ newPrice ≤ MAX_PRICE) :
    m.kept now tier newPrice * MIN_PRICE ≤ m.keptValue now tier newPrice ∧
      m.keptValue now tier newPrice ≤ m.kept now tier newPrice * MAX_PRICE := by
  unfold kept keptValue
  split_ifs
  · exact value_bounds h
  · exact ⟨Nat.mul_le_mul_left _ hprice.1, Nat.mul_le_mul_left _ hprice.2⟩

/-- A conversion loses less than one second. -/
lemma Membership.keptValue_bounds (m : Membership) (now : ℕ) (tier : Tier) (hprice : 0 < newPrice) :
    m.keptValue now tier newPrice ≤ m.value now ∧
      m.value now < m.keptValue now tier newPrice + newPrice := by
  unfold keptValue
  split_ifs
  · exact ⟨le_rfl, Nat.lt_add_of_pos_right hprice⟩
  · exact ⟨Nat.div_mul_le_self _ _, Nat.lt_div_mul_add hprice⟩

lemma Membership.kept_le (tier : Tier) (newPrice : ℕ) (h : m.Sound now) :
    m.kept now tier newPrice ≤ MAX_TERM * MAX_PRICE := by
  unfold kept
  split_ifs
  · exact (remaining_le h).trans (by decide)
  · exact (Nat.div_le_self _ _).trans (value_le h)

/-! ### Credits -/

lemma retained_eq (h : m.Sound now) (hprice : MIN_PRICE ≤ newPrice) :
    retained m now tier newPrice =
      .ok (m.kept now tier newPrice, m.keptValue now tier newPrice) := by
  by_cases hactive : m.tier ≠ .Free ∧ m.expiresAt > now
  · obtain ⟨hfree, -⟩ := id hactive
    have hpaid : m.pricePaidPerPeriod ≠ 0 :=
      (Nat.lt_of_lt_of_le (by decide) (h hfree).1).ne'
    have hnew : newPrice ≠ 0 := (Nat.lt_of_lt_of_le (by decide) hprice).ne'
    have hvalue : (m.expiresAt - now) * m.pricePaidPerPeriod = m.value now :=
      (Membership.value_of_ne hfree).symm
    have hbound : m.value now < 2 ^ 256 := (Membership.value_le h).trans_lt (by decide)
    rw [retained, if_pos hactive]
    simp only [if_neg hpaid]
    rw [mulU_ok_iff.mpr ⟨hvalue ▸ hbound, hvalue⟩, ok_bind]
    by_cases hsame : m.tier = tier
    · rw [if_pos hsame, Membership.kept, Membership.keptValue, if_pos hsame, if_pos hsame,
        Membership.remaining, if_neg hfree]
      rfl
    · have hle := (Nat.div_mul_le_self (m.value now) newPrice).trans_lt hbound
      rw [if_neg hsame, divU_ok_iff.mpr ⟨hnew, rfl⟩, ok_bind, mulU_ok_iff.mpr ⟨hle, rfl⟩,
        Membership.kept, Membership.keptValue, if_neg hsame, if_neg hsame]
      rfl
  · have hnone : m.remaining now = 0 ∧ m.value now = 0 := by
      unfold Membership.remaining Membership.value
      split_ifs with hfree
      · exact ⟨rfl, rfl⟩
      · have hexpired : m.expiresAt - now = 0 :=
          Nat.sub_eq_zero_of_le (not_lt.mp fun hlt => hactive ⟨hfree, hlt⟩)
        exact ⟨hexpired, by rw [hexpired, Nat.zero_mul]⟩
    rw [retained, if_neg hactive, Membership.kept, Membership.keptValue, hnone.1, hnone.2,
      Nat.zero_div, Nat.zero_mul, ite_self]

/-- The seconds of a credited membership, and what they are worth. -/
def Membership.total (m : Membership) (now : ℕ) (tier : Tier) (duration newPrice : ℕ) : ℕ :=
  m.kept now tier newPrice + duration

def Membership.totalValue (m : Membership) (now : ℕ) (tier : Tier) (duration newPrice : ℕ) : ℕ :=
  m.keptValue now tier newPrice + duration * newPrice

/-- Cutting time off a membership does not change the price it was bought at. -/
lemma clamped_price (value total : ℕ) :
    value * MAX_TERM / total / MAX_TERM = value / total := by
  rw [Nat.div_div_eq_div_mul, Nat.mul_div_mul_right _ _ (by decide)]

lemma price_bounds (tier : Tier) (h : m.Sound now)
    (hprice : MIN_PRICE ≤ newPrice ∧ newPrice ≤ MAX_PRICE)
    (hduration : 0 < duration) :
    MIN_PRICE ≤ m.totalValue now tier duration newPrice / m.total now tier duration newPrice ∧
      m.totalValue now tier duration newPrice / m.total now tier duration newPrice ≤
        MAX_PRICE := by
  obtain ⟨hmin, hmax⟩ := Membership.kept_bounds tier h hprice
  have hpos : 0 < m.total now tier duration newPrice := Nat.add_pos_right _ hduration
  constructor
  · rw [Nat.le_div_iff_mul_le hpos, Membership.total, Nat.mul_comm, Nat.add_mul]
    exact Nat.add_le_add hmin (Nat.mul_le_mul_left _ hprice.1)
  · refine Nat.div_le_of_le_mul ?_
    rw [Membership.total, Nat.add_mul]
    exact Nat.add_le_add hmax (Nat.mul_le_mul_left _ hprice.2)

/-- The largest product fits a word. -/
lemma worth_fits : 2 * (MAX_TERM * MAX_PRICE) * MAX_TERM < 2 ^ 256 := by
  norm_num [MAX_TERM, MAX_PRICE]

lemma totalValue_le (tier : Tier) (h : m.Sound now)
    (hprice : MIN_PRICE ≤ newPrice ∧ newPrice ≤ MAX_PRICE) (hduration : duration ≤ MAX_TERM) :
    m.totalValue now tier duration newPrice ≤ 2 * (MAX_TERM * MAX_PRICE) := by
  have hpos : 0 < newPrice := Nat.lt_of_lt_of_le (by decide) hprice.1
  have hvalue := (Membership.keptValue_bounds m now tier hpos).1
  have hbought : duration * newPrice ≤ MAX_TERM * MAX_PRICE := Nat.mul_le_mul hduration hprice.2
  rw [Nat.two_mul]
  exact Nat.add_le_add (hvalue.trans (Membership.value_le h)) hbought

lemma clamp_eq (total value : ℕ) (allowClamp : Bool) (hpos : 0 < total)
    (hworth : value * MAX_TERM < 2 ^ 256) :
    ∃ cut, cut / min total MAX_TERM = value / total ∧
      (clamp total value allowClamp : Except Error _) = do
        guard (total ≤ MAX_TERM ∨ allowClamp = true) .TermCapReached
        return (min total MAX_TERM, cut) := by
  by_cases hover : total > MAX_TERM
  · refine ⟨value * MAX_TERM / total, ?_, ?_⟩
    · rw [min_eq_right hover.le, clamped_price]
    · rw [clamp, if_pos hover, min_eq_right hover.le, mulU_ok_iff.mpr ⟨hworth, rfl⟩, ok_bind,
        divU_ok_iff.mpr ⟨hpos.ne', rfl⟩, ok_bind]
      simp only [hover.not_ge, false_or]
  · have hle := not_lt.mp hover
    refine ⟨value, by rw [min_eq_left hle], ?_⟩
    rw [clamp, if_neg hover, guard_of_true (.inl hle), min_eq_left hle]
    rfl

/-- What a credit does to a sound membership. -/
lemma creditTime_eq (h : m.Sound now) (hprice : MIN_PRICE ≤ newPrice ∧ newPrice ≤ MAX_PRICE)
    (hduration : 0 < duration ∧ duration ≤ MAX_TERM) :
    creditTime m now tier duration newPrice allowClamp = do
      guard (m.total now tier duration newPrice ≤ MAX_TERM ∨ allowClamp = true) .TermCapReached
      let expiry ← addU 256 now (min (m.total now tier duration newPrice) MAX_TERM)
      guard (expiry < 2 ^ 64) .SafeCastOverflowedUintDowncast
      return ⟨tier, expiry,
        m.totalValue now tier duration newPrice / m.total now tier duration newPrice⟩ := by
  have hpos : 0 < m.total now tier duration newPrice := Nat.add_pos_right _ hduration.1
  have hworth := totalValue_le tier h hprice hduration.2
  have hproduct := (Nat.mul_le_mul_right MAX_TERM hworth).trans_lt worth_fits
  have htotal : m.total now tier duration newPrice < 2 ^ 256 := by
    refine (Nat.add_le_add (Membership.kept_le tier newPrice h) hduration.2).trans_lt ?_
    norm_num [MAX_TERM, MAX_PRICE]
  have hvalue : m.totalValue now tier duration newPrice < 2 ^ 256 :=
    (Nat.le_mul_of_pos_right _ (by decide)).trans_lt hproduct
  have hbought : duration * newPrice < 2 ^ 256 := (Nat.le_add_left _ _).trans_lt hvalue
  have hfits := (price_bounds tier h hprice hduration.1).2.trans_lt
    (show MAX_PRICE < 2 ^ 96 by norm_num [MAX_PRICE])
  obtain ⟨cut, hcut, hclamp⟩ := clamp_eq _ _ allowClamp hpos hproduct
  have hmin : min (m.total now tier duration newPrice) MAX_TERM ≠ 0 :=
    (lt_min hpos (by decide)).ne'
  rw [creditTime, retained_eq h hprice.1]
  simp only [ok_bind]
  rw [addU_ok_iff.mpr ⟨htotal, rfl⟩, ok_bind, mulU_ok_iff.mpr ⟨hbought, rfl⟩, ok_bind,
    addU_ok_iff.mpr ⟨hvalue, rfl⟩, ok_bind]
  change (clamp (m.total now tier duration newPrice) (m.totalValue now tier duration newPrice)
    allowClamp >>= _) = _
  rw [hclamp, bind_assoc]
  simp only [pure_bind, divU_ok_iff.mpr ⟨hmin, hcut⟩, ok_bind, guard_of_true hfits]

/-! ### Members -/

/-- The token that comes next holds what token zero does. -/
lemma Members.next_membership (h : Members s) :
    s.memberships (s.totalSupply + 1) = s.memberships 0 := by
  rw [h.membership_zero, h.fresh _ fun hin => Nat.not_succ_le_self _ hin.2]

/-- The token of a member holds their membership, also where it has just been minted. -/
lemma Members.tokenFor_membership (h : Members s) {id : ℕ}
    (htoken : Memberships.tokenFor s member = .ok (s', id)) :
    s.memberships id = s.membershipOf member := by
  rcases tokenFor_ok htoken with ⟨-, rfl, -⟩ | ⟨-, rfl, hnone⟩
  · rfl
  · rw [Storage.membershipOf, hnone, h.next_membership]

/-- What a credited member has is their own membership with the time credited to it. -/
lemma Credited.membershipOf (hmembers : Members s)
    (h : Credited s s' member tier duration allowClamp) :
    creditTime (s.membershipOf member) s.now tier duration (s.pricePerPeriod tier) allowClamp =
        .ok (s'.membershipOf member) ∧
      (∀ a ≠ member, s'.membershipOf a = s.membershipOf a) ∧ s'.now = s.now ∧
      s'.pricePerPeriod = s.pricePerPeriod := by
  obtain ⟨-, -, -, s₁, id, m, htoken, rfl, hm⟩ := h
  obtain ⟨hsame, hnow, hprices⟩ := tokenFor_memberships htoken
  obtain ⟨hmembers₁, hid, hpos, -⟩ := hmembers.tokenFor htoken
  have hmine : (s₁.setMembership id m).membershipOf member = m := by
    change Function.update s₁.memberships id m (s₁.tokenOf member) = m
    rw [hid, Function.update_self]
  refine ⟨?_, fun a ha => ?_, hnow, hprices⟩
  · rw [hmine, ← hm, hmembers.tokenFor_membership htoken]
  · have hne : s₁.tokenOf a ≠ id := fun heq =>
      ha (hmembers₁.tokenOf_inj (heq ▸ Nat.pos_iff_ne_zero.mp hpos) (heq.trans hid.symm))
    have hother : s₁.tokenOf a = s.tokenOf a := by
      rcases tokenFor_ok htoken with ⟨rfl, -, -⟩ | ⟨rfl, -, -⟩
      · rfl
      · exact Function.update_of_ne ha _ _
    change Function.update s₁.memberships id m (s₁.tokenOf a) = s.memberships (s.tokenOf a)
    rw [Function.update_of_ne hne, hother, hsame]

/-- Sound memberships, each worth no more than what was paid and granted for it. -/
structure Backed (w : World Digest) : Prop where
  members : Members w.storage
  prices : InRange w.storage
  sound : ∀ a, (w.storage.membershipOf a).Sound w.storage.now
  value_le : ∀ a, (w.storage.membershipOf a).value w.storage.now ≤
    PERIOD * w.paid a + w.granted a

/-- A membership that has just been minted is no different from none. -/
lemma Members.membershipOf_minted (h : Members s) (hnone : s.tokenOf member = 0) :
    (s.minted member).membershipOf = s.membershipOf := by
  funext a
  change s.memberships (Function.update s.tokenOf member (s.totalSupply + 1) a) =
    s.memberships (s.tokenOf a)
  by_cases ha : a = member
  · subst ha
    rw [Function.update_self, hnone, h.next_membership]
  · rw [Function.update_of_ne ha]

/-- A credit brings a sound membership, and its value but for the rounding. -/
lemma credited_sound (h : m.Sound now) (htier : tier ≠ .Free)
    (hprice : MIN_PRICE ≤ newPrice ∧ newPrice ≤ MAX_PRICE)
    (hduration : 0 < duration ∧ duration ≤ MAX_TERM)
    (hcredit : creditTime m now tier duration newPrice allowClamp = .ok m') :
    m'.Sound now ∧ m'.value now ≤ m.value now + duration * newPrice := by
  rw [creditTime_eq h hprice hduration] at hcredit
  simp only [bind_ok_iff, guard_ok_iff, addU_ok_iff, pure_ok_iff] at hcredit
  obtain ⟨_, -, expiry, ⟨-, rfl⟩, _, -, rfl⟩ := hcredit
  obtain ⟨hmin, hmax⟩ := price_bounds tier h hprice hduration.1
  have hpos : 0 < newPrice := Nat.lt_of_lt_of_le (by decide) hprice.1
  have hkept := (Membership.keptValue_bounds m now tier hpos).1
  refine ⟨fun _ => ⟨hmin, hmax, Nat.add_le_add_left (min_le_right _ _) _⟩, ?_⟩
  rw [Membership.value, if_neg htier, Nat.add_sub_cancel_left]
  calc min (m.total now tier duration newPrice) MAX_TERM *
        (m.totalValue now tier duration newPrice / m.total now tier duration newPrice)
      ≤ m.total now tier duration newPrice *
        (m.totalValue now tier duration newPrice / m.total now tier duration newPrice) :=
          Nat.mul_le_mul_right _ (min_le_left _ _)
    _ ≤ m.totalValue now tier duration newPrice := Nat.mul_div_le _ _
    _ ≤ m.value now + duration * newPrice       := Nat.add_le_add_right hkept _

omit [DecidableEq Digest] in
lemma Backed.of_changed (h : Backed w) (hchanged : Changed w w') : Backed w' := by
  have hmembers := h.members.of_changed hchanged
  cases hchanged with
  | quiet htokens hnow hprices hpaid hgranted =>
    simp only [Storage.tokens, Prod.mk.injEq] at htokens
    have hsame : w'.storage.membershipOf = w.storage.membershipOf := by
      funext a
      rw [Storage.membershipOf, Storage.membershipOf, htokens.2.1, htokens.2.2.1]
    refine ⟨hmembers, hprices h.prices, fun a => ?_, fun a => ?_⟩
    · rw [hsame]
      exact (h.sound a).mono hnow
    · rw [hsame, hpaid, hgranted]
      exact (Membership.value_mono hnow).trans (h.value_le a)
  | @minted member hnone =>
    have hsame := h.members.membershipOf_minted hnone
    exact ⟨hmembers, h.prices, fun a => hsame ▸ h.sound a, fun a => hsame ▸ h.value_le a⟩
  | @credited w' seq member tier duration allowClamp hcredited hworth =>
    obtain ⟨hcredit, hothers, hnow, hprices⟩ :=
      hcredited.membershipOf (h.members.with_seq seq)
    have hrange : InRange w'.storage := by
      unfold InRange
      rw [hprices]
      exact h.prices
    obtain ⟨hsound, hvalue⟩ := credited_sound (h.sound member) hcredited.tier_ne
      (h.prices tier hcredited.tier_ne) ⟨hcredited.duration_pos, hcredited.duration_le⟩ hcredit
    refine ⟨hmembers, hrange, fun a => ?_, fun a => ?_⟩
    · rw [hnow]
      by_cases ha : a = member
      · subst ha
        exact hsound
      · rw [hothers a ha]
        exact h.sound a
    · rw [hnow, hworth a]
      by_cases ha : a = member
      · subst ha
        rw [if_pos rfl]
        exact hvalue.trans (Nat.add_le_add_right (h.value_le a) _)
      · rw [hothers a ha, if_neg ha]
        exact h.value_le a

lemma initialPrice_range (htier : tier ≠ .Free) :
    MIN_PRICE ≤ initialPrice tier ∧ initialPrice tier ≤ MAX_PRICE := by
  cases tier with
  | Free => exact absurd rfl htier
  | Pro | Premium | Enterprise => constructor <;> decide

omit [DecidableEq Digest] in
lemma backed_init (treasury owner : Address) (now : BlockTime) :
    Backed (World.init treasury owner now : World Digest) where
  members := members_init treasury owner now
  prices _ htier := initialPrice_range htier
  sound _ h := absurd rfl h
  value_le _ := Nat.zero_le _

lemma backed_run (treasury owner : Address) (now : BlockTime) (calls : List (Call Digest)) :
    Backed ((machine keccak).run (.init treasury owner now) calls) :=
  Machine.run_induction (M := machine keccak)
    (fun _ _ _ hs hstep => hs.of_changed (changed_of_step hstep))
    (backed_init treasury owner now) calls

theorem value_backed (keccak : Keccak Digest) (treasury owner : Address) (now : BlockTime)
    (calls : List (Call Digest)) (a : Address) :
    let w := (machine keccak).run (.init treasury owner now) calls
    let m := w.storage.membershipOf a
    m.value w.storage.now ≤ PERIOD * w.paid a + w.granted a ∧
      (m.tier ≠ .Free → MIN_PRICE ≤ m.pricePaidPerPeriod ∧ m.pricePaidPerPeriod ≤ MAX_PRICE ∧
        m.expiresAt ≤ w.storage.now + MAX_TERM) :=
  ⟨(backed_run treasury owner now calls).value_le a, (backed_run treasury owner now calls).sound a⟩

/-! ### Purchases -/

/-- A purchase is not cut: its value is lost to rounding only. -/
lemma bought_value (h : m.Sound now) (htier : tier ≠ .Free)
    (hprice : MIN_PRICE ≤ newPrice ∧ newPrice ≤ MAX_PRICE)
    (hduration : 0 < duration ∧ duration ≤ MAX_TERM)
    (hcredit : creditTime m now tier duration newPrice false = .ok m') :
    m'.tier = tier ∧ m'.expiresAt = now + (m.kept now tier newPrice + duration) ∧
      m.value now + duration * newPrice < m'.value now + newPrice + (m'.expiresAt - now) := by
  rw [creditTime_eq h hprice hduration] at hcredit
  simp only [bind_ok_iff, guard_ok_iff, addU_ok_iff, pure_ok_iff, Bool.false_eq_true,
    or_false] at hcredit
  obtain ⟨_, hterm, expiry, ⟨-, rfl⟩, _, -, rfl⟩ := hcredit
  have hpos : 0 < m.total now tier duration newPrice := Nat.add_pos_right _ hduration.1
  have hlost := Nat.lt_div_mul_add (a := m.totalValue now tier duration newPrice) hpos
  have hnew : 0 < newPrice := Nat.lt_of_lt_of_le (by decide) hprice.1
  have hkept := (Membership.keptValue_bounds m now tier hnew).2
  rw [min_eq_left hterm]
  refine ⟨rfl, rfl, ?_⟩
  rw [Membership.value_of_ne (m := ⟨tier, _, _⟩) htier]
  dsimp only
  rw [Nat.add_sub_cancel_left, Nat.mul_comm (m.total now tier duration newPrice)]
  rw [Membership.totalValue] at hlost ⊢
  omega

theorem purchase_conserves (keccak : Keccak Digest) (treasury owner : Address) (now : BlockTime)
    (calls : List (Call Digest)) (call : Call Digest) (member : Address) (tier : Tier)
    (periods : ℕ) (hbuys : call.buys = some (member, tier, periods)) (w' : World Digest)
    (h : step keccak ((machine keccak).run (.init treasury owner now) calls) call = .ok w') :
    let w := (machine keccak).run (.init treasury owner now) calls
    let price := w.storage.pricePerPeriod tier
    let m := w.storage.membershipOf member
    let m' := w'.storage.membershipOf member
    let time := w.storage.now
    w'.paid member = w.paid member + price * periods ∧
      m'.value time ≤ m.value time + periods * PERIOD * price ∧
      m.value time + periods * PERIOD * price < m'.value time + price + (m'.expiresAt - time) ∧
      (m.tier = tier → time < m.expiresAt → m'.expiresAt = m.expiresAt + periods * PERIOD) ∧
      (m.expiresAt ≤ time → m'.expiresAt = time + periods * PERIOD) ∧
      w'.storage.tierOf member = (tier, m'.expiresAt) ∧
      ∀ a ≠ member, w'.storage.membershipOf a = w.storage.membershipOf a := by
  intro w price m m' time
  have hbacked : Backed w := backed_run treasury owner now calls
  obtain ⟨⟨seq, hcredited⟩, hpaid, -⟩ := step_buys hbuys h
  obtain ⟨hcredit, hothers, hnow, -⟩ := hcredited.membershipOf (hbacked.members.with_seq seq)
  have hrange := hbacked.prices tier hcredited.tier_ne
  have hduration := And.intro hcredited.duration_pos hcredited.duration_le
  have hsound := hbacked.sound member
  obtain ⟨htier, hexpiry, hlost⟩ :=
    bought_value hsound hcredited.tier_ne hrange hduration hcredit
  have hexpiry' : m'.expiresAt = time + (m.kept time tier price + periods * PERIOD) := hexpiry
  refine ⟨?_, (credited_sound hsound hcredited.tier_ne hrange hduration hcredit).2, hlost,
    fun hsame hactive => ?_, fun hexpired => ?_, ?_, hothers⟩
  · rw [hpaid, Function.update_self]
  · rw [hexpiry', Membership.kept_same hsame hcredited.tier_ne]
    omega
  · rw [hexpiry', Membership.kept_expired hexpired, Nat.zero_add]
  · have hmember : w'.storage.tokenOf member ≠ 0 := by
      intro hnone
      rw [Storage.membershipOf, hnone,
        (hbacked.members.of_changed (changed_of_step h)).membership_zero] at htier
      exact hcredited.tier_ne htier.symm
    have hactive : ¬ (m'.tier = .Free ∨ m'.expiresAt ≤ w'.storage.now) := by
      rintro (hfree | hexpired)
      · exact hcredited.tier_ne (htier.symm.trans hfree)
      · rw [hnow, hexpiry'] at hexpired
        have hpos := hcredited.duration_pos
        dsimp only at hexpired
        omega
    rw [Storage.tierOf, if_neg hmember]
    change (if m'.tier = .Free ∨ m'.expiresAt ≤ w'.storage.now then _ else (m'.tier, _)) = _
    rw [if_neg hactive]
    exact congrArg (·, m'.expiresAt) htier

/-- A member who has bought two months, ten days ago. -/
def subscribed : List (Call (Address × Tier × ℕ × ℕ)) := [
  .subscribe ⟨.ofNat 7, fun _ => true⟩ .Pro 2 9990000,
  .advance (.ofNat 865000)]

/-- The member changes to a dearer tier for three months. -/
theorem purchase_conserves_upgrade :
    let w := (machine id).run (.init (.ofNat 1) (.ofNat 2) (.ofNat 1000)) subscribed
    let w' := (machine id).exec w (.subscribe ⟨.ofNat 7, fun _ => true⟩ .Premium 3 29990000)
    let m := w.storage.membershipOf (.ofNat 7)
    let m' := w'.storage.membershipOf (.ofNat 7)
    let price := w.storage.pricePerPeriod .Premium
    0 < m.value w.storage.now ∧
      w'.paid (.ofNat 7) = w.paid (.ofNat 7) + price * 3 ∧
      m'.value w.storage.now ≤ m.value w.storage.now + 3 * PERIOD * price ∧
      m.value w.storage.now + 3 * PERIOD * price <
        m'.value w.storage.now + price + (m'.expiresAt - w.storage.now) := by
  intro w w' m m' price
  have hvalue : 0 < m.value w.storage.now := by decide +kernel
  have hstep : (machine id).step w (.subscribe ⟨.ofNat 7, fun _ => true⟩ .Premium 3 29990000) =
      .ok w' := Machine.step_of_isOk (by decide +kernel)
  have h := purchase_conserves id (.ofNat 1) (.ofNat 2) (.ofNat 1000) subscribed
    (.subscribe ⟨.ofNat 7, fun _ => true⟩ .Premium 3 29990000) (.ofNat 7) .Premium 3 rfl w' hstep
  exact ⟨hvalue, h.1, h.2.1, h.2.2.1⟩

/-! ### Which purchases go through -/

lemma tokenFor_succeeds (h : Members s) (hmember : member ≠ Address.zero)
    (hsupply : s.totalSupply + 1 < 2 ^ 64) : ∃ s₁ id, tokenFor s member = .ok (s₁, id) := by
  by_cases hnone : s.tokenOf member = 0
  · have hfree := h.next_unowned
    refine ⟨s.minted member, s.totalSupply + 1, ?_⟩
    rw [tokenFor, if_pos hnone, mintTo, guard_of_true hnone, addU_ok_iff.mpr ⟨hsupply, rfl⟩]
    simp only [ok_bind, mint, guard_of_true hmember, update]
    rw [guard_of_true (.inl hfree)]
    simp only [ok_bind, Erc721.Ledger.update, Erc721.Ledger.checkAuth, hfree]
    rfl
  · exact ⟨s, s.tokenOf member, if_neg hnone⟩

/-- Where prices and time are in range, only the term can be too long. -/
lemma purchase_ok_iff {periods : ℕ} (h : Members s) (hrange : InRange s) (htier : tier ≠ .Free)
    (hsound : (s.membershipOf member).Sound s.now) (hmember : member ≠ Address.zero)
    (hsupply : s.totalSupply + 1 < 2 ^ 64) (hnow : s.now + MAX_TERM < 2 ^ 64)
    (hperiods : 0 < periods ∧ periods ≤ MAX_PERIODS_PER_PURCHASE) :
    (∃ s', purchase s member tier periods (s.pricePerPeriod tier) = .ok s') ↔
      (s.membershipOf member).kept s.now tier (s.pricePerPeriod tier) + periods * PERIOD ≤
        MAX_TERM := by
  obtain ⟨s₁, id, htoken⟩ := tokenFor_succeeds h hmember hsupply
  obtain ⟨hsame, hnow₁, -⟩ := tokenFor_memberships htoken
  have hduration := term_bounds hperiods
  have hexpiry : (s.now : ℕ) + min ((s.membershipOf member).total s.now tier (periods * PERIOD)
      (s.pricePerPeriod tier)) MAX_TERM < 2 ^ 64 :=
    (Nat.add_le_add_left (min_le_right _ _) _).trans_lt hnow
  rw [purchase, htoken]
  simp only [ok_bind]
  rw [hsame, hnow₁, h.tokenFor_membership htoken,
    creditTime_eq hsound (hrange tier htier) hduration]
  by_cases hterm : (s.membershipOf member).total s.now tier (periods * PERIOD)
      (s.pricePerPeriod tier) ≤ MAX_TERM
  · rw [guard_of_true (.inl hterm), ok_bind, addU_ok_iff.mpr ⟨hexpiry.trans (by norm_num), rfl⟩,
      ok_bind, guard_of_true hexpiry, ok_bind]
    exact iff_of_true ⟨_, rfl⟩ hterm
  · refine iff_of_false ?_ hterm
    rintro ⟨s', hs'⟩
    simp only [bind_ok_iff, guard_ok_iff, Bool.false_eq_true, or_false] at hs'
    obtain ⟨_, ⟨_, hin, -⟩, -⟩ := hs'
    exact hterm hin

lemma totalSupply_run (treasury owner : Address) (now : BlockTime) (calls : List (Call Digest)) :
    ((machine keccak).run (.init treasury owner now) calls).storage.totalSupply ≤ calls.length := by
  have h := Machine.run_le_length (M := machine keccak) (f := fun w => w.storage.totalSupply)
    (s := World.init treasury owner now) (fun w call w' hstep => ?_) calls
  · exact h.trans_eq (Nat.zero_add _)
  · cases changed_of_step hstep with
    | quiet htokens => exact (congrArg Prod.fst htokens).le.trans (Nat.le_succ _)
    | minted hnone  => exact le_rfl
    | credited hcredited =>
      obtain ⟨-, -, -, s₁, id, m, htoken, heq, -⟩ := hcredited
      rw [heq]
      change s₁.totalSupply ≤ _
      rcases tokenFor_ok htoken with ⟨rfl, -, -⟩ | ⟨rfl, -, -⟩
      · exact Nat.le_succ _
      · exact le_rfl

theorem subscribe_ok_iff (keccak : Keccak Digest) (treasury owner : Address) (now : BlockTime)
    (calls : List (Call Digest)) (env : Env Digest) (tier : Tier)
    (periods maxPricePerPeriod : ℕ) (hlength : calls.length + 1 < 2 ^ 64)
    (hsender : env.sender ≠ Address.zero)
    (hnow : ((machine keccak).run (.init treasury owner now) calls).storage.now + MAX_TERM <
      2 ^ 64) :
    let s := ((machine keccak).run (.init treasury owner now) calls).storage
    let price := s.pricePerPeriod tier
    (∃ s', subscribe env s tier periods maxPricePerPeriod = .ok s') ↔
      tier ≠ .Free ∧ (0 < periods ∧ periods ≤ MAX_PERIODS_PER_PURCHASE) ∧
        price ≤ maxPricePerPeriod ∧
        env.succeeds (.transferFrom env.sender s.treasury (price * periods)) = true ∧
        (s.membershipOf env.sender).kept s.now tier price + periods * PERIOD ≤ MAX_TERM := by
  intro s price
  have hbacked : Backed ((machine keccak).run (.init treasury owner now) calls) :=
    backed_run treasury owner now calls
  have hsupply : s.totalSupply + 1 < 2 ^ 64 :=
    (Nat.add_le_add_right (totalSupply_run treasury owner now calls) 1).trans_lt hlength
  constructor
  · rintro ⟨s', hs'⟩
    simp only [subscribe, quote, bind_ok_iff, guard_ok_iff, pure_ok_iff, mulU_ok_iff, not_or,
      not_lt] at hs'
    obtain ⟨_, ⟨_, htier, _, ⟨hpos, hle⟩, _, hmax, rfl⟩, _, ⟨-, rfl⟩, _, hpaid, hpurchase⟩ := hs'
    have hperiods := And.intro (Nat.pos_of_ne_zero hpos) hle
    refine ⟨htier, hperiods, hmax, hpaid, ?_⟩
    exact (purchase_ok_iff hbacked.members hbacked.prices htier (hbacked.sound _) hsender hsupply
      hnow hperiods).mp ⟨s', hpurchase⟩
  · rintro ⟨htier, hperiods, hmax, hpaid, hterm⟩
    obtain ⟨s', hpurchase⟩ := (purchase_ok_iff hbacked.members hbacked.prices htier
      (hbacked.sound _) hsender hsupply hnow hperiods).mpr hterm
    have hcost : price * periods < 2 ^ 256 :=
      (Nat.mul_le_mul (hbacked.prices tier htier).2 hperiods.2).trans_lt (by decide)
    refine ⟨s', ?_⟩
    have hquote : quote s tier periods maxPricePerPeriod = .ok price := by
      have hin : ¬ (periods = 0 ∨ periods > MAX_PERIODS_PER_PURCHASE) := by omega
      rw [quote, guard_of_true htier, ok_bind, guard_of_true hin, ok_bind, guard_of_true hmax]
      rfl
    rw [subscribe, hquote, ok_bind, mulU_ok_iff.mpr ⟨hcost, rfl⟩, ok_bind, guard_of_true hpaid]
    exact hpurchase

/-- With the treasury paid, the member can renew. -/
theorem subscribe_ok_iff_renewal :
    ∃ s', subscribe (⟨.ofNat 7, fun _ => true⟩ : Env (Address × Tier × ℕ × ℕ))
      ((machine id).run (.init (.ofNat 1) (.ofNat 2) (.ofNat 1000)) subscribed).storage .Pro 1
      9990000 = .ok s' :=
  (subscribe_ok_iff id (.ofNat 1) (.ofNat 2) (.ofNat 1000) subscribed ⟨.ofNat 7, fun _ => true⟩ .Pro
    1 9990000 (by decide) (by decide) (by decide +kernel)).mpr (by decide +kernel)

end Suwappu.Memberships
