import Suwappu.Memberships.Basic

/-!
# Soulbound tokens

`soulbound`: every wallet has at most one membership, which stays with it. A call changes tokens and
memberships by a mint or by a credit of time; `Changed` says which.
-/

namespace Suwappu.Memberships

open Checked

variable {Digest : Type} [DecidableEq Digest] {keccak : Keccak Digest} {env : Env Digest}
  {s s' : Storage} {w w' : World Digest} {member a b : Address} {id : ℕ} {tier : Tier}
  {duration : ℕ} {allowClamp : Bool}

/-! ### Mints -/

/-- The token that comes next, for an address that has none. -/
def Storage.minted (s : Storage) (member : Address) : Storage :=
  { s with
    totalSupply := s.totalSupply + 1
    tokenOf := Function.update s.tokenOf member (s.totalSupply + 1)
    token := s.token.move none (some member) (s.totalSupply + 1) }

lemma update_ok {dst src auth : Option Address} (h : update s dst id auth = .ok (s', src)) :
    s' = { s with token := s.token.move (s.token.ownerOf id) dst id } ∧ src = s.token.ownerOf id ∧
      (s.token.ownerOf id = none ∨ dst = none) ∧ (auth ≠ none → src ≠ none) := by
  simp only [update, bind_ok_iff, guard_ok_iff, pure_ok_iff] at h
  obtain ⟨_, hfree, ⟨token, owner⟩, hupdate, h⟩ := h
  cases hledger : s.token.update dst id auth with
  | error e =>
    rw [hledger] at hupdate
    cases hupdate
  | ok result =>
    rw [hledger] at hupdate
    cases hupdate
    cases h
    obtain ⟨hsrc, -, hauth⟩ := Erc721.Ledger.update_ok hledger
    simp only [Erc721.Ledger.update, bind_ok_iff, pure_ok_iff, Prod.mk.injEq] at hledger
    obtain ⟨_, -, rfl, rfl⟩ := hledger
    exact ⟨rfl, rfl, hfree, hauth⟩

lemma mintTo_ok (h : mintTo s member = .ok (s', id)) :
    s' = s.minted member ∧ id = s.totalSupply + 1 ∧ s.tokenOf member = 0 := by
  simp only [mintTo, mint, bind_ok_iff, guard_ok_iff, addU_ok_iff, pure_ok_iff,
    Prod.mk.injEq] at h
  obtain ⟨_, hnone, _, ⟨-, rfl⟩, _, ⟨_, -, ⟨_, src⟩, hupdate, _, hsrc, rfl⟩, rfl, rfl⟩ := h
  obtain ⟨rfl, rfl, -, -⟩ := update_ok hupdate
  dsimp only at hsrc
  refine ⟨?_, rfl, hnone⟩
  rw [Storage.minted, hsrc]

/-! ### Changes -/

/-- Who owns what, and the time of the tokens. -/
def Storage.tokens (s : Storage) :
    ℕ × (Address → ℕ) × (ℕ → Membership) × Erc721.Ledger Address :=
  (s.totalSupply, s.tokenOf, s.memberships, s.token)

/-- Time that a member has been credited with, perhaps a new one. -/
structure Credited (s s' : Storage) (member : Address) (tier : Tier) (duration : ℕ)
    (allowClamp : Bool) : Prop where
  tier_ne : tier ≠ .Free
  duration_pos : 0 < duration
  duration_le : duration ≤ MAX_TERM
  eq : ∃ s₁ id m, tokenFor s member = .ok (s₁, id) ∧ s' = s₁.setMembership id m ∧
    creditTime (s.memberships id) s.now tier duration (s.pricePerPeriod tier) allowClamp = .ok m

/-- Every price of a paid tier is in range. -/
def InRange (s : Storage) : Prop :=
  ∀ tier ≠ Tier.Free, MIN_PRICE ≤ s.pricePerPeriod tier ∧ s.pricePerPeriod tier ≤ MAX_PRICE

/-- What a call does to tokens, to time and to the records of what has been paid and granted. -/
inductive Changed (w : World Digest) : World Digest → Prop where
  | quiet {w' : World Digest} (htokens : w'.storage.tokens = w.storage.tokens)
    (hnow : w.storage.now ≤ w'.storage.now) (hprices : InRange w.storage → InRange w'.storage)
    (hpaid : w'.paid = w.paid) (hgranted : w'.granted = w.granted) : Changed w w'
  | minted {member : Address} (hnone : w.storage.tokenOf member = 0) :
    Changed w { w with storage := w.storage.minted member }
  | credited {w' : World Digest} {seq : Address → ℕ} {member : Address} {tier : Tier}
    {duration : ℕ} {allowClamp : Bool}
    (hcredited : Credited { w.storage with subscriptionSeq := seq } w'.storage member tier duration
      allowClamp)
    (hworth : ∀ a, PERIOD * w'.paid a + w'.granted a = PERIOD * w.paid a + w.granted a +
      if a = member then duration * w.storage.pricePerPeriod tier else 0) : Changed w w'

lemma tokenFor_ok (h : tokenFor s member = .ok (s', id)) :
    s' = s ∧ id = s.tokenOf member ∧ id ≠ 0 ∨
      s' = s.minted member ∧ id = s.totalSupply + 1 ∧ s.tokenOf member = 0 := by
  unfold tokenFor at h
  split_ifs at h with hnone
  · exact .inr (mintTo_ok h)
  · cases h
    exact .inl ⟨rfl, rfl, hnone⟩

lemma tokenFor_memberships (h : tokenFor s member = .ok (s', id)) :
    s'.memberships = s.memberships ∧ s'.now = s.now ∧ s'.pricePerPeriod = s.pricePerPeriod := by
  rcases tokenFor_ok h with ⟨rfl, -, -⟩ | ⟨rfl, -, -⟩ <;> exact ⟨rfl, rfl, rfl⟩

lemma quote_ok {periods maxPricePerPeriod price : ℕ}
    (h : quote s tier periods maxPricePerPeriod = .ok price) :
    tier ≠ .Free ∧ (0 < periods ∧ periods ≤ MAX_PERIODS_PER_PURCHASE) ∧
      price = s.pricePerPeriod tier := by
  simp only [quote, bind_ok_iff, guard_ok_iff, pure_ok_iff, not_or, not_lt] at h
  obtain ⟨_, htier, _, ⟨hpos, hle⟩, _, -, rfl⟩ := h
  exact ⟨htier, ⟨Nat.pos_of_ne_zero hpos, hle⟩, rfl⟩

lemma term_bounds {periods : ℕ} (h : 0 < periods ∧ periods ≤ MAX_PERIODS_PER_PURCHASE) :
    0 < periods * PERIOD ∧ periods * PERIOD ≤ MAX_TERM :=
  ⟨Nat.mul_pos h.1 (by decide), (Nat.mul_le_mul_right PERIOD h.2).trans (by decide)⟩

lemma purchase_credited {periods price : ℕ} (htier : tier ≠ .Free)
    (hperiods : 0 < periods ∧ periods ≤ MAX_PERIODS_PER_PURCHASE)
    (hprice : price = s.pricePerPeriod tier) (h : purchase s member tier periods price = .ok s') :
    Credited s s' member tier (periods * PERIOD) false := by
  simp only [purchase, bind_ok_iff, pure_ok_iff] at h
  obtain ⟨⟨s₁, id⟩, htoken, m, hm, rfl⟩ := h
  obtain ⟨hmemberships, hnow, -⟩ := tokenFor_memberships htoken
  rw [hmemberships, hnow, hprice] at hm
  obtain ⟨hpos, hle⟩ := term_bounds hperiods
  exact ⟨htier, hpos, hle, s₁, id, m, htoken, rfl, hm⟩

omit [DecidableEq Digest] in
lemma grantTime_credited (h : grantTime env s member tier duration = .ok s') :
    Credited s s' member tier duration true := by
  simp only [grantTime, bind_ok_iff, guard_ok_iff, pure_ok_iff, not_or, not_lt] at h
  obtain ⟨_, -, _, htier, _, ⟨hpos, hle⟩, ⟨s₁, id⟩, htoken, m, hm, _, -, rfl⟩ := h
  obtain ⟨hmemberships, hnow, hprices⟩ := tokenFor_memberships htoken
  rw [hmemberships, hnow, hprices] at hm
  exact ⟨htier, Nat.pos_of_ne_zero hpos, hle.trans (by decide), s₁, id, m, htoken, rfl, hm⟩

lemma update_add_apply (f : Address → ℕ) (n : ℕ) :
    Function.update f member (f member + n) a = f a + if a = member then n else 0 := by
  by_cases ha : a = member
  · subst ha
    rw [Function.update_self, if_pos rfl]
  · rw [Function.update_of_ne ha, if_neg ha, add_zero]

omit [DecidableEq Digest] in
/-- An owned token does not move, and one that nobody owns is nobody's to move. -/
lemma transferFrom_fails {src dst : Address} : transferFrom env s src dst id ≠ .ok s' := by
  intro h
  simp only [transferFrom, bind_ok_iff, guard_ok_iff, pure_ok_iff] at h
  obtain ⟨_, -, ⟨_, owner⟩, hupdate, -⟩ := h
  obtain ⟨-, rfl, hfree, howned⟩ := update_ok hupdate
  rcases hfree with hfree | hfree
  · exact howned (Option.some_ne_none _) hfree
  · cases hfree

/-- A purchase credits its member and is paid for. -/
lemma step_buys {call : Call Digest} {periods : ℕ}
    (hbuys : call.buys = some (member, tier, periods))
    (h : step keccak w call = .ok w') :
    (∃ seq, Credited { w.storage with subscriptionSeq := seq } w'.storage member tier
        (periods * PERIOD) false) ∧
      w'.paid = Function.update w.paid member
        (w.paid member + w.storage.pricePerPeriod tier * periods) ∧ w'.granted = w.granted := by
  cases call with
  | subscribe env tier periods maxPricePerPeriod =>
    cases hbuys
    simp only [step, subscribe, bind_ok_iff, guard_ok_iff, pure_ok_iff] at h
    obtain ⟨s, ⟨price, hquote, cost, -, _, -, hpurchase⟩, rfl⟩ := h
    obtain ⟨htier, hperiods, rfl⟩ := quote_ok hquote
    exact ⟨⟨_, purchase_credited htier hperiods rfl hpurchase⟩, rfl, rfl⟩
  | subscribeWithAuthorization env tier periods maxPricePerPeriod auth =>
    cases hbuys
    simp only [step, subscribeWithAuthorization, bind_ok_iff, guard_ok_iff, pure_ok_iff,
      mulU_ok_iff] at h
    obtain ⟨s, ⟨price, hquote, _, ⟨-, rfl⟩, _, hvalue, _, -, _, -, _, -, hpurchase⟩, rfl⟩ := h
    obtain ⟨htier, hperiods, rfl⟩ := quote_ok hquote
    refine ⟨⟨_, purchase_credited htier hperiods rfl hpurchase⟩, ?_, rfl⟩
    rw [World.pay, hvalue]
  | _ => cases hbuys

lemma changed_of_buys {call : Call Digest} {periods : ℕ}
    (hbuys : call.buys = some (member, tier, periods)) (h : step keccak w call = .ok w') :
    Changed w w' := by
  obtain ⟨⟨seq, hcredited⟩, hpaid, hgranted⟩ := step_buys hbuys h
  refine .credited hcredited fun a => ?_
  rw [hpaid, hgranted, update_add_apply]
  split_ifs <;> ring

lemma changed_of_step {call : Call Digest} (h : step keccak w call = .ok w') : Changed w w' := by
  cases call with
  | mintFree env =>
    simp only [step, mintFree, bind_ok_iff, pure_ok_iff] at h
    obtain ⟨_, ⟨⟨s, id⟩, hmint, rfl⟩, rfl⟩ := h
    obtain ⟨rfl, -, hnone⟩ := mintTo_ok hmint
    exact .minted hnone
  | subscribe => exact changed_of_buys rfl h
  | subscribeWithAuthorization => exact changed_of_buys rfl h
  | grantTime env dst tier duration =>
    simp only [step, bind_ok_iff, pure_ok_iff] at h
    obtain ⟨s, hgrant, rfl⟩ := h
    refine .credited (grantTime_credited hgrant) fun a => ?_
    change PERIOD * w.paid a + Function.update w.granted dst _ a = _
    rw [update_add_apply]
    split_ifs <;> ring
  | transferFrom env src dst tokenId =>
    simp only [step, bind_ok_iff] at h
    obtain ⟨_, htransfer, -⟩ := h
    exact absurd htransfer transferFrom_fails
  | approve => cases h
  | setApprovalForAll => cases h
  | renounceOwnership => cases h
  | setTreasury env treasury =>
    simp only [step, setTreasury, bind_ok_iff, pure_ok_iff] at h
    obtain ⟨_, ⟨_, -, _, -, rfl⟩, rfl⟩ := h
    exact .quiet rfl le_rfl id rfl rfl
  | setPrice env tier price =>
    simp only [step, setPrice, bind_ok_iff, guard_ok_iff, pure_ok_iff, not_or, not_lt] at h
    obtain ⟨_, ⟨_, -, _, -, _, hprice, rfl⟩, rfl⟩ := h
    refine .quiet rfl le_rfl (fun hrange tier' htier' => ?_) rfl rfl
    dsimp only
    by_cases hsame : tier' = tier
    · subst hsame
      rwa [Function.update_self]
    · rw [Function.update_of_ne hsame]
      exact hrange tier' htier'
  | transferOwnership env newOwner =>
    simp only [step, transferOwnership, bind_ok_iff, pure_ok_iff] at h
    obtain ⟨_, ⟨_, -, _, -, rfl⟩, rfl⟩ := h
    exact .quiet rfl le_rfl id rfl rfl
  | advance time =>
    simp only [step, bind_ok_iff, guard_ok_iff, pure_ok_iff] at h
    obtain ⟨_, hnow, rfl⟩ := h
    exact .quiet rfl hnow id rfl rfl

/-! ### Members -/

/-- One token a wallet and one wallet a token; tokens that nobody has are untouched. -/
structure Members (s : Storage) : Prop where
  owner_iff : ∀ id a, s.token.ownerOf id = some a ↔ id ≠ 0 ∧ s.tokenOf a = id
  exists_iff : ∀ id, s.token.ownerOf id ≠ none ↔ 1 ≤ id ∧ id ≤ s.totalSupply
  balance : ∀ a, s.token.balanceOf a = if s.tokenOf a = 0 then 0 else 1
  fresh : ∀ id, ¬ (1 ≤ id ∧ id ≤ s.totalSupply) → s.memberships id = ⟨.Free, 0, 0⟩

lemma Members.membership_zero (h : Members s) : s.memberships 0 = ⟨.Free, 0, 0⟩ :=
  h.fresh 0 fun hin => absurd hin.1 (by decide)

lemma Members.next_unowned (h : Members s) : s.token.ownerOf (s.totalSupply + 1) = none := by
  by_contra howned
  exact absurd ((h.exists_iff _).mp howned).2 (Nat.not_succ_le_self _)

lemma Members.tokenOf_le (h : Members s) (a : Address) : s.tokenOf a ≤ s.totalSupply := by
  rcases Nat.eq_zero_or_pos (s.tokenOf a) with hzero | hpos
  · rw [hzero]
    exact Nat.zero_le _
  · have howner := (h.owner_iff _ a).mpr ⟨hpos.ne', rfl⟩
    exact ((h.exists_iff _).mp (howner ▸ Option.some_ne_none a)).2

lemma Members.tokenOf_inj (h : Members s) (hne : s.tokenOf a ≠ 0)
    (hab : s.tokenOf a = s.tokenOf b) :
    a = b := by
  have ha := (h.owner_iff _ a).mpr ⟨hne, rfl⟩
  have hb := (h.owner_iff _ b).mpr ⟨hne, hab.symm⟩
  exact Option.some.inj (ha.symm.trans hb)

lemma Members.of_tokens (h : Members s) (htokens : s'.tokens = s.tokens) : Members s' := by
  simp only [Storage.tokens, Prod.mk.injEq] at htokens
  obtain ⟨hsupply, hof, hmemberships, htoken⟩ := htokens
  constructor
  · rw [htoken, hof]
    exact h.owner_iff
  · rw [htoken, hsupply]
    exact h.exists_iff
  · rw [htoken, hof]
    exact h.balance
  · rw [hmemberships, hsupply]
    exact h.fresh

lemma Members.with_seq (h : Members s) (seq : Address → ℕ) :
    Members { s with subscriptionSeq := seq } :=
  h.of_tokens rfl

lemma Members.minted (h : Members s) (hnone : s.tokenOf member = 0) :
    Members (s.minted member) := by
  refine ⟨fun id a => ?_, fun id => ?_, fun a => ?_, fun id hid => h.fresh id fun hin => hid ?_⟩
  · change Function.update s.token.ownerOf (s.totalSupply + 1) (some member) id = some a ↔
      id ≠ 0 ∧ Function.update s.tokenOf member (s.totalSupply + 1) a = id
    have hle := h.tokenOf_le a
    by_cases hid : id = s.totalSupply + 1
    · subst hid
      rw [Function.update_self]
      by_cases ha : a = member
      · subst ha
        rw [Function.update_self]
        exact iff_of_true rfl ⟨Nat.succ_ne_zero _, rfl⟩
      · rw [Function.update_of_ne ha]
        refine iff_of_false (fun heq => ha (Option.some.inj heq).symm) fun heq => ?_
        exact absurd (heq.2 ▸ hle) (Nat.not_succ_le_self _)
    · rw [Function.update_of_ne hid, h.owner_iff]
      by_cases ha : a = member
      · subst ha
        rw [Function.update_self, hnone]
        exact iff_of_false (fun heq => heq.1 heq.2.symm) fun heq => hid heq.2.symm
      · rw [Function.update_of_ne ha]
  · change Function.update s.token.ownerOf (s.totalSupply + 1) (some member) id ≠ none ↔
      1 ≤ id ∧ id ≤ s.totalSupply + 1
    by_cases hid : id = s.totalSupply + 1
    · subst hid
      rw [Function.update_self]
      exact iff_of_true (Option.some_ne_none _) ⟨Nat.le_add_left _ _, le_rfl⟩
    · rw [Function.update_of_ne hid, h.exists_iff]
      omega
  · change Function.update s.token.balanceOf member (s.token.balanceOf member + 1) a =
      if Function.update s.tokenOf member (s.totalSupply + 1) a = 0 then 0 else 1
    by_cases ha : a = member
    · subst ha
      rw [Function.update_self, Function.update_self, h.balance, if_pos hnone]
      rfl
    · rw [Function.update_of_ne ha, Function.update_of_ne ha, h.balance]
  · exact ⟨hin.1, hin.2.trans (Nat.le_succ _)⟩

lemma Members.setMembership (h : Members s) (hid : 1 ≤ id ∧ id ≤ s.totalSupply) (m : Membership) :
    Members (s.setMembership id m) := by
  refine ⟨h.owner_iff, h.exists_iff, h.balance, fun id' hid' => ?_⟩
  have hne : id' ≠ id := fun heq => hid' (heq ▸ hid)
  change Function.update s.memberships id m id' = _
  rw [Function.update_of_ne hne]
  exact h.fresh id' hid'

lemma Members.tokenFor (h : Members s) (htoken : tokenFor s member = .ok (s', id)) :
    Members s' ∧ s'.tokenOf member = id ∧ 1 ≤ id ∧ id ≤ s'.totalSupply := by
  rcases tokenFor_ok htoken with ⟨rfl, rfl, hne⟩ | ⟨rfl, rfl, hnone⟩
  · exact ⟨h, rfl, Nat.pos_of_ne_zero hne, h.tokenOf_le member⟩
  · exact ⟨h.minted hnone, Function.update_self .., Nat.le_add_left _ _, le_rfl⟩

omit [DecidableEq Digest] in
lemma Members.of_changed (h : Members w.storage) (hchanged : Changed w w') :
    Members w'.storage := by
  cases hchanged with
  | quiet htokens => exact h.of_tokens htokens
  | minted hnone  => exact h.minted hnone
  | credited hcredited =>
    obtain ⟨-, -, -, s₁, id, m, htoken, heq, -⟩ := hcredited
    obtain ⟨hmembers, -, hid⟩ := (h.with_seq _).tokenFor htoken
    rw [heq]
    exact hmembers.setMembership hid m

/-- Who has a token keeps it. -/
lemma owner_tokenFor (h : Members s) (htoken : tokenFor s member = .ok (s', id)) {id' : ℕ}
    (howner : s.token.ownerOf id' = some a) : s'.token.ownerOf id' = some a := by
  rcases tokenFor_ok htoken with ⟨rfl, -, -⟩ | ⟨rfl, -, -⟩
  · exact howner
  · change Function.update s.token.ownerOf _ _ id' = _
    have hle := ((h.exists_iff id').mp (howner ▸ Option.some_ne_none a)).2
    rwa [Function.update_of_ne (Nat.lt_succ_of_le hle).ne]

omit [DecidableEq Digest] in
lemma owner_of_changed (h : Members w.storage) (hchanged : Changed w w')
    (howner : w.storage.token.ownerOf id = some a) : w'.storage.token.ownerOf id = some a := by
  cases hchanged with
  | quiet htokens =>
    simp only [Storage.tokens, Prod.mk.injEq] at htokens
    rw [htokens.2.2.2]
    exact howner
  | @minted member hnone =>
    have htoken : tokenFor w.storage member = mintTo w.storage member := if_pos hnone
    change Function.update w.storage.token.ownerOf _ _ id = _
    have hle := ((h.exists_iff id).mp (howner ▸ Option.some_ne_none a)).2
    rwa [Function.update_of_ne (Nat.lt_succ_of_le hle).ne]
  | credited hcredited =>
    obtain ⟨-, -, -, s₁, id, m, htoken, heq, -⟩ := hcredited
    rw [heq]
    exact owner_tokenFor (h.with_seq _) htoken howner

lemma members_init (treasury owner : Address) (now : BlockTime) :
    Members (Storage.init treasury owner now) where
  owner_iff _ _ := iff_of_false (Option.some_ne_none _).symm fun h => h.1 h.2.symm
  exists_iff _ := iff_of_false (fun h => h rfl) fun h =>
    Nat.not_succ_le_zero 0 (h.1.trans h.2)
  balance _ := rfl
  fresh _ _ := rfl

lemma members_run {calls : List (Call Digest)} (h : Members w.storage) :
    Members ((machine keccak).run w calls).storage :=
  Machine.run_induction (M := machine keccak) (I := fun w => Members w.storage)
    (fun _ _ _ hs hstep => hs.of_changed (changed_of_step hstep)) h calls

theorem soulbound (keccak : Keccak Digest) (treasury owner : Address) (now : BlockTime)
    (calls more : List (Call Digest)) :
    let s := ((machine keccak).run (.init treasury owner now) calls).storage
    let s' := ((machine keccak).run (.init treasury owner now) (calls ++ more)).storage
    (∀ id a, s.token.ownerOf id = some a ↔ id ≠ 0 ∧ s.tokenOf a = id) ∧
      (∀ id, s.token.ownerOf id ≠ none ↔ 1 ≤ id ∧ id ≤ s.totalSupply) ∧
      (∀ a, s.token.balanceOf a ≤ 1) ∧
      ∀ id a, s.token.ownerOf id = some a → s'.token.ownerOf id = some a := by
  intro s s'
  have hmembers : Members s := members_run (members_init treasury owner now)
  refine ⟨hmembers.owner_iff, hmembers.exists_iff, fun a => ?_, fun id a howner => ?_⟩
  · rw [hmembers.balance]
    split_ifs
    · exact Nat.zero_le 1
    · exact le_rfl
  · change ((machine keccak).run _ (calls ++ more)).storage.token.ownerOf id = some a
    rw [Machine.run_append]
    have hrun := Machine.run_induction (M := machine keccak)
      (I := fun w => Members w.storage ∧ w.storage.token.ownerOf id = some a)
      (fun _ _ _ hs hstep => ⟨hs.1.of_changed (changed_of_step hstep),
        owner_of_changed hs.1 (changed_of_step hstep) hs.2⟩) ⟨hmembers, howner⟩ more
    exact hrun.2

end Suwappu.Memberships
