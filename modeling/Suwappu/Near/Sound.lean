import Suwappu.Lib.Totals
import Suwappu.Near.Book

/-!
# What every move of the book keeps

In a sound book the money of an escrow goes out once, to whom and over what the deal says, and the
balance covers what is owed.
-/

namespace Suwappu.Near

open InFlight

/-- A transfer in flight goes to whom and over what the deal says. -/
def Message.Agrees (deal : ℕ → Deal) : Message → Prop
  | .payout id worker a => worker = (deal id).worker ∧ a = (deal id).amount
  | .refund id buyer a  => buyer = (deal id).buyer ∧ a = (deal id).total
  | _                   => True

def Outflow.Agrees (deal : ℕ → Deal) : Outflow → Prop
  | .payout id worker a => worker = (deal id).worker ∧ a = (deal id).amount
  | .refund id buyer a  => buyer = (deal id).buyer ∧ a = (deal id).total

/-- The part of the balance that belongs to escrow `id`. -/
def Book.reserve (b : Book) (id : ℕ) : ℕ :=
  match b.phase id with
  | none       => 0
  | some .paid => (b.deal id).storage + if 0 < b.net.unnoticed id then (b.deal id).amount else 0
  | some _     => (b.deal id).total

structure Sound (b : Book) : Prop where
  fresh : ∀ id, b.nextId ≤ id → b.phase id = none
  payouts_le : ∀ id, b.net.payouts id ≤ 1
  paid : ∀ id, 0 < b.net.payouts id → b.phase id = some .paid
  refunds_le : ∀ id, b.net.refunds id ≤ 1
  gone : ∀ id, 0 < b.net.refunds id → b.phase id = none ∧ id < b.nextId
  pending : ∀ m ∈ b.net.pending, m.Agrees b.deal
  outflows : ∀ o ∈ b.net.outflows, o.Agrees b.deal
  bounced : ∀ id, b.phase id = some .bounced → id ∈ b.net.failedPayouts
  unnoticed : ∀ id, 0 < b.net.unnoticed id → id ∈ b.net.failedPayouts
  covered : ∑ id ∈ Finset.range b.nextId, b.reserve id ≤ b.net.balance

/-- A book without escrows. -/
lemma sound_empty {b : Book} (hnext : b.nextId = 0) (hphase : ∀ id, b.phase id = none)
    (hpending : b.net.pending = []) (houtflows : b.net.outflows = []) : Sound b where
  fresh id _ := hphase id
  payouts_le id := by simp [Net.payouts, hpending, houtflows]
  paid id h := by simp [Net.payouts, hpending, houtflows] at h
  refunds_le id := by simp [Net.refunds, hpending, houtflows]
  gone id h := by simp [Net.refunds, hpending, houtflows] at h
  pending m hm := by simp [hpending] at hm
  outflows o ho := by simp [houtflows] at ho
  bounced id h := by simp [hphase] at h
  unnoticed id h := by simp [Net.unnoticed, hpending] at h
  covered := by simp [hnext]

variable {b b' : Book} {id i : ℕ} {m : Message} {rest : List Message}

namespace Sound

lemma payouts_pos {who : String} {a : ℕ} (h : Message.payout id who a ∈ b.net.pending) :
    0 < b.net.payouts id :=
  Nat.add_pos_left (List.countP_pos_iff.mpr ⟨_, h, by simp [Message.paysOut]⟩) _

lemma payouts_pos_of_outflow {who : String} {a : ℕ} (h : Outflow.payout id who a ∈ b.net.outflows) :
    0 < b.net.payouts id :=
  Nat.add_pos_right _ (List.countP_pos_iff.mpr ⟨_, h, by simp [Outflow.paysOut]⟩)

lemma payouts_pos_of_bounce (h : Message.payoutResult id false ∈ b.net.pending) :
    0 < b.net.payouts id :=
  Nat.add_pos_left (List.countP_pos_iff.mpr ⟨_, h, by simp [Message.paysOut]⟩) _

lemma refunds_pos {who : String} {a : ℕ} (h : Message.refund id who a ∈ b.net.pending) :
    0 < b.net.refunds id :=
  Nat.add_pos_left (List.countP_pos_iff.mpr ⟨_, h, by simp [Message.refunds]⟩) _

lemma refunds_pos_of_outflow {who : String} {a : ℕ} (h : Outflow.refund id who a ∈ b.net.outflows) :
    0 < b.net.refunds id :=
  Nat.add_pos_right _ (List.countP_pos_iff.mpr ⟨_, h, by simp [Outflow.refunds]⟩)

/-- An unnoticed failure is a transfer that was started. -/
lemma unnoticed_le (net : Net) (id : ℕ) : net.unnoticed id ≤ net.payouts id := by
  refine (List.countP_mono_left fun m _ h => ?_).trans (Nat.le_add_right _ _)
  cases m with
  | payoutResult i ok => cases ok <;> simp_all [Message.bounces, Message.paysOut]
  | _ => simp [Message.bounces] at h

lemma payouts_eq_zero (hS : Sound b) (h : b.phase id ≠ some .paid) : b.net.payouts id = 0 := by
  by_contra hne
  exact h (hS.paid id (by omega))

lemma lt_nextId (hS : Sound b) {p : Phase} (h : b.phase id = some p) : id < b.nextId := by
  by_contra hle
  rw [hS.fresh id (by omega)] at h
  cases h

/-- Messages that agree still do when the deals they are for did not change. -/
lemma agrees_of_eq {m : Message} {deal : ℕ → Deal} (h : m.Agrees b.deal)
    (hdeal : ∀ id, (∃ who a, m = .payout id who a ∨ m = .refund id who a) → deal id = b.deal id) :
    m.Agrees deal := by
  cases m with
  | payout id who a =>
    simp only [Message.Agrees] at h ⊢
    rwa [hdeal id ⟨who, a, .inl rfl⟩]
  | refund id who a =>
    simp only [Message.Agrees] at h ⊢
    rwa [hdeal id ⟨who, a, .inr rfl⟩]
  | _ => trivial

lemma outflow_agrees_of_eq {o : Outflow} {deal : ℕ → Deal} (h : o.Agrees b.deal)
    (hdeal : deal o.id = b.deal o.id) : o.Agrees deal := by
  cases o <;> simp only [Outflow.Agrees, Outflow.id] at h hdeal ⊢ <;> rwa [hdeal]

lemma reserve_congr (hphase : b'.phase id = b.phase id) (hdeal : b'.deal id = b.deal id)
    (hnet : b'.net.unnoticed id = b.net.unnoticed id) : b'.reserve id = b.reserve id := by
  rw [Book.reserve, Book.reserve, hphase, hdeal, hnet]

/-- An escrow the contract knows may change its phase. -/
lemma fresh_update (hS : Sound b) (hlt : id < b.nextId) (p : Option Phase) {j : ℕ}
    (hj : b.nextId ≤ j) : Function.update b.phase id p j = none := by
  rw [Function.update_of_ne (by omega)]
  exact hS.fresh j hj

/-- A phase other than `bounced` makes no escrow bounce. -/
lemma bounced_update (hS : Sound b) {p : Option Phase} (hp : p ≠ some .bounced) {j : ℕ}
    (hj : Function.update b.phase id p j = some .bounced) : j ∈ b.net.failedPayouts := by
  by_cases hne : j = id
  · subst hne
    rw [Function.update_self] at hj
    exact absurd hj hp
  · rw [Function.update_of_ne hne] at hj
    exact hS.bounced j hj

/-! #### Messages that move no money -/

/-- A network with no more transfers in it and no less money. -/
lemma weaken (hS : Sound b) {net : Net} (hpay : ∀ id, net.payouts id ≤ b.net.payouts id)
    (href : ∀ id, net.refunds id ≤ b.net.refunds id)
    (hunn : ∀ id, net.unnoticed id ≤ b.net.unnoticed id)
    (hpending : ∀ m ∈ net.pending, m.Agrees b.deal)
    (houtflows : ∀ o ∈ net.outflows, o.Agrees b.deal)
    (hfailed : ∀ id ∈ b.net.failedPayouts, id ∈ net.failedPayouts)
    (hbal : b.net.balance ≤ net.balance) : Sound { b with net := net } where
  fresh := hS.fresh
  payouts_le id := (hpay id).trans (hS.payouts_le id)
  paid id h := hS.paid id (h.trans_le (hpay id))
  refunds_le id := (href id).trans (hS.refunds_le id)
  gone id h := hS.gone id (h.trans_le (href id))
  pending := hpending
  outflows := houtflows
  bounced id h := hfailed id (hS.bounced id h)
  unnoticed id h := hfailed id (hS.unnoticed id (h.trans_le (hunn id)))
  covered := by
    refine (Finset.sum_le_sum fun id _ => ?_).trans (hS.covered.trans hbal)
    have h := hunn id
    simp only [Book.reserve]
    split
    · exact le_rfl
    · split_ifs <;> omega
    · exact le_rfl

lemma receive (hS : Sound b) (n : ℕ) : Sound { b with net := b.net.receive n } :=
  hS.weaken (fun _ => le_rfl) (fun _ => le_rfl) (fun _ => le_rfl) hS.pending hS.outflows
    (fun _ h => h) (Nat.le_add_right _ _)

lemma send (hS : Sound b) (hm : m.Idle) : Sound { b with net := b.net.send m } := by
  have hcounts : ∀ id, m.paysOut id = false ∧ m.bounces id = false := by
    intro id
    cases m with
    | payoutResult i ok => cases ok <;> simp_all [Message.Idle]
    | _ => simp_all [Message.Idle]
  refine hS.weaken (fun id => ?_) (fun id => ?_) (fun id => ?_) (fun m' hm' => ?_) hS.outflows
    (fun _ h => h) le_rfl
  · simp only [Net.send, Net.payouts, List.countP_cons, (hcounts id).1, Bool.false_eq_true,
      if_false, Nat.add_zero, le_rfl]
  · exact (refunds_send hm b.net id).le
  · simp only [Net.send, Net.unnoticed, List.countP_cons, (hcounts id).2, Bool.false_eq_true,
      if_false, Nat.add_zero, le_rfl]
  · rcases List.mem_cons.mp hm' with rfl | hm'
    · cases m' <;> simp_all [Message.Idle, Message.Agrees]
    · exact hS.pending m' hm'

/-- Taking any message out leaves no more transfers. -/
lemma drop (hS : Sound b) (h : take b.net.pending i = some (m, rest)) :
    Sound { b with net := { b.net with pending := rest } } := by
  refine hS.weaken (fun id => ?_) (fun id => ?_) (fun id => ?_)
    (fun m' hm' => hS.pending m' (subset_of_take h hm')) hS.outflows (fun _ h => h) le_rfl
  · have hcount := countP_take (p := Message.paysOut id) h
    simp only [Net.payouts]
    omega
  · exact refunds_rest_le h id
  · have hcount := countP_take (p := Message.bounces id) h
    simp only [Net.unnoticed]
    omega

/-! #### Transfers that end -/

/-- The money of a failed transfer to the worker is back, and reserved again. -/
lemma bounce (hS : Sound b) {who : String} {a : ℕ}
    (h : take b.net.pending i = some (.payout id who a, rest)) :
    Sound { b with net := { b.net with
      balance := b.net.balance + a
      pending := .payoutResult id false :: rest
      failedPayouts := id :: b.net.failedPayouts } } := by
  have hm := mem_of_take h
  have hpos : 0 < b.net.payouts id := payouts_pos hm
  have hpaid := hS.paid id hpos
  have ha : a = (b.deal id).amount := (hS.pending _ hm).2
  set net : Net := { b.net with
    balance := b.net.balance + a
    pending := .payoutResult id false :: rest
    failedPayouts := id :: b.net.failedPayouts } with hnet
  have hpay : ∀ j, net.payouts j = b.net.payouts j := by
    intro j
    have hcount := countP_take (p := Message.paysOut j) h
    simp [hnet, Net.payouts, List.countP_cons] at hcount ⊢
    omega
  have href : ∀ j, net.refunds j = b.net.refunds j := by
    intro j
    have hcount := countP_take (p := Message.refunds j) h
    simp [hnet, Net.refunds] at hcount ⊢
    omega
  have hunn : ∀ j, net.unnoticed j = b.net.unnoticed j + if id = j then 1 else 0 := by
    intro j
    have hcount := countP_take (p := Message.bounces j) h
    simp [hnet, Net.unnoticed, List.countP_cons] at hcount ⊢
    omega
  -- this transfer was the only one, so no failure of it was waiting
  have hnone : b.net.unnoticed id = 0 := by
    have hcount := countP_take (p := Message.paysOut id) h
    have hbounces := countP_take (p := Message.bounces id) h
    have hle := unnoticed_le ⟨0, rest, [], []⟩ id
    have hone := hS.payouts_le id
    simp only [Net.payouts, Net.unnoticed, Message.paysOut, Message.bounces, decide_true,
      if_true, List.countP_nil, Bool.false_eq_true, if_false] at hcount hbounces hle hone ⊢
    omega
  refine ⟨hS.fresh, fun j => hpay j ▸ hS.payouts_le j, fun j hj => hS.paid j (hpay j ▸ hj),
    fun j => href j ▸ hS.refunds_le j, fun j hj => hS.gone j (href j ▸ hj), fun m' hm' => ?_,
    hS.outflows, fun j hj => List.mem_cons_of_mem _ (hS.bounced j hj), fun j hj => ?_, ?_⟩
  · rcases List.mem_cons.mp hm' with rfl | hm'
    · trivial
    · exact hS.pending m' (subset_of_take h hm')
  · by_cases hj' : id = j
    · exact hj' ▸ List.mem_cons_self
    · dsimp only at hj
      rw [hunn j, if_neg hj', Nat.add_zero] at hj
      exact List.mem_cons_of_mem _ (hS.unnoticed j hj)
  · have hsum := Totals.sum_add_of_eq_off (Finset.mem_range.mpr (hS.lt_nextId hpaid))
      (f := Book.reserve { b with net := net }) (g := b.reserve) fun j _ hne =>
        reserve_congr rfl rfl (by rw [hunn j, if_neg (Ne.symm hne), Nat.add_zero])
    have hbefore : b.reserve id = (b.deal id).storage := by simp [Book.reserve, hpaid, hnone]
    have hafter : Book.reserve { b with net := net } id =
        (b.deal id).storage + (b.deal id).amount := by
      simp [Book.reserve, hpaid, hunn]
    have hcovered := hS.covered
    change ∑ j ∈ Finset.range b.nextId, Book.reserve { b with net := net } j ≤ b.net.balance + a
    omega

lemma settle (hS : Sound b) {net : Net} (h : Settled b.net i net) :
    Sound { b with net := net } := by
  have href := h.refunds_le
  cases h with
  | paid htake =>
    -- the transfer moves from the messages to the outflows
    have hm := mem_of_take htake
    refine hS.weaken (fun j => ?_) href (fun j => ?_) (fun m' hm' => ?_) (fun o ho => ?_)
      (fun _ h => h) le_rfl
    · have hcount := countP_take (p := Message.paysOut j) htake
      simp [Net.payouts, List.countP_cons] at hcount ⊢
      omega
    · have hcount := countP_take (p := Message.bounces j) htake
      simp [Net.unnoticed] at hcount ⊢
      omega
    · rcases List.mem_cons.mp hm' with rfl | hm'
      · trivial
      · exact hS.pending m' (subset_of_take htake hm')
    · rcases List.mem_cons.mp ho with rfl | ho
      · exact hS.pending _ hm
      · exact hS.outflows o ho
  | bounced htake => exact hS.bounce htake
  | refunded htake =>
    have hm := mem_of_take htake
    refine hS.weaken (fun j => ?_) href (fun j => ?_)
      (fun m' hm' => hS.pending m' (subset_of_take htake hm')) (fun o ho => ?_)
      (fun _ h => h) le_rfl
    · have hcount := countP_take (p := Message.paysOut j) htake
      simp [Net.payouts] at hcount ⊢
      omega
    · have hcount := countP_take (p := Message.bounces j) htake
      simp [Net.unnoticed] at hcount ⊢
      omega
    · rcases List.mem_cons.mp ho with rfl | ho
      · exact hS.pending _ hm
      · exact hS.outflows o ho
  | @kept _ _ amount _ htake => exact (hS.drop htake).receive amount

/-- The contract learns that the transfer failed. -/
lemma notice (hS : Sound b) (h : take b.net.pending i = some (.payoutResult id false, rest)) :
    Sound { b with
      phase := Function.update b.phase id (some .bounced)
      net := { b.net with pending := rest } } := by
  have hdrop := hS.drop h
  have hpay : b.net.payouts id = Net.payouts { b.net with pending := rest } id + 1 := by
    have hcount := countP_take (p := Message.paysOut id) h
    simp at hcount
    simp only [Net.payouts, hcount]
    omega
  have hunn : 0 < b.net.unnoticed id := by
    have hcount := countP_take (p := Message.bounces id) h
    simp at hcount
    rw [Net.unnoticed]
    omega
  have hone := hS.payouts_le id
  have hpaid := hS.paid id (by omega)
  have hoff : ∀ j, 0 < Net.payouts { b.net with pending := rest } j → j ≠ id := by
    rintro j hj rfl
    omega
  refine ⟨fun j hj => ?_, hdrop.payouts_le, fun j hj => ?_, hdrop.refunds_le, fun j hj => ?_,
    hdrop.pending, hdrop.outflows, fun j hj => ?_, hdrop.unnoticed, ?_⟩
  · exact hS.fresh_update (hS.lt_nextId hpaid) _ hj
  · dsimp only
    rw [Function.update_of_ne (hoff j hj)]
    exact hdrop.paid j hj
  · have hgone := hdrop.gone j hj
    have hne : j ≠ id := fun e => by
      rw [e] at hgone
      exact absurd (hpaid.symm.trans hgone.1) (by simp)
    refine ⟨?_, hgone.2⟩
    dsimp only
    rw [Function.update_of_ne hne]
    exact hgone.1
  · by_cases hne : j = id
    · exact hne ▸ hS.unnoticed id hunn
    · dsimp only at hj
      rw [Function.update_of_ne hne] at hj
      exact hS.bounced j hj
  · have hother : ∀ j ∈ Finset.range b.nextId, j ≠ id →
        Book.reserve { b with
          phase := Function.update b.phase id (some .bounced)
          net := { b.net with pending := rest } } j = b.reserve j := by
      intro j _ hne
      refine reserve_congr (Function.update_of_ne hne _ _) rfl ?_
      have hcount := countP_take (p := Message.bounces j) h
      simp [Net.unnoticed, Ne.symm hne] at hcount ⊢
      omega
    have hsum := Totals.sum_add_of_eq_off (Finset.mem_range.mpr (hS.lt_nextId hpaid)) hother
    have hbefore : b.reserve id = (b.deal id).storage + (b.deal id).amount := by
      simp [Book.reserve, hpaid, hunn]
    have hafter : Book.reserve { b with
        phase := Function.update b.phase id (some .bounced)
        net := { b.net with pending := rest } } id = (b.deal id).total := by
      simp [Book.reserve]
    have hcovered := hS.covered
    rw [Deal.total] at hafter
    dsimp only at hsum hafter ⊢
    omega

/-! #### Escrows that open, pay and refund -/

lemma opens (hS : Sound b) (d : Deal) :
    Sound { nextId := b.nextId + 1
            phase := Function.update b.phase b.nextId (some .opened)
            deal := Function.update b.deal b.nextId d
            net := b.net.receive d.total } := by
  have hphase := hS.fresh b.nextId le_rfl
  have hpay : ∀ j, 0 < b.net.payouts j → j ≠ b.nextId := by
    rintro j hj rfl
    exact absurd (hphase.symm.trans (hS.paid _ hj)) (by simp)
  have href : ∀ j, 0 < b.net.refunds j → j ≠ b.nextId := fun j hj e => by
    have hlt := (hS.gone j hj).2
    omega
  refine ⟨fun j hj => ?_, hS.payouts_le, fun j hj => ?_, hS.refunds_le, fun j hj => ?_,
    fun m hm => ?_, fun o ho => ?_, fun j hj => ?_, hS.unnoticed, ?_⟩
  · dsimp only at hj ⊢
    rw [Function.update_of_ne (by omega)]
    exact hS.fresh j (by omega)
  · dsimp only
    rw [Function.update_of_ne (hpay j hj)]
    exact hS.paid j hj
  · dsimp only
    rw [Function.update_of_ne (href j hj)]
    exact ⟨(hS.gone j hj).1, (hS.gone j hj).2.trans (Nat.lt_succ_self _)⟩
  · refine agrees_of_eq (hS.pending m hm) fun id h => Function.update_of_ne ?_ _ _
    obtain ⟨who, a, rfl | rfl⟩ := h
    · exact hpay id (payouts_pos hm)
    · exact href id (refunds_pos hm)
  · have hne : o.id ≠ b.nextId := by
      cases o with
      | payout id who a => exact hpay id (payouts_pos_of_outflow ho)
      | refund id who a => exact href id (refunds_pos_of_outflow ho)
    exact outflow_agrees_of_eq (hS.outflows o ho) (Function.update_of_ne hne _ _)
  · exact hS.bounced_update (by decide) hj
  · dsimp only
    rw [Finset.sum_range_succ]
    have hothers := hS.covered
    refine Nat.add_le_add (le_of_eq_of_le (Finset.sum_congr rfl fun j hj => ?_) hothers) ?_
    · have hne : j ≠ b.nextId := (Finset.mem_range.mp hj).ne
      exact reserve_congr (Function.update_of_ne hne _ _) (Function.update_of_ne hne _ _) rfl
    · simp [Book.reserve]

lemma pay (hS : Sound b) (h : b.phase id = some .opened)
    (hbal : (b.deal id).amount ≤ b.net.balance) :
    Sound { b with
      phase := Function.update b.phase id (some .paid)
      net := { b.net with
        balance := b.net.balance - (b.deal id).amount
        pending := .payout id (b.deal id).worker (b.deal id).amount :: b.net.pending } } := by
  have hzero : b.net.payouts id = 0 := hS.payouts_eq_zero (by simp [h])
  have hunn : b.net.unnoticed id = 0 := by
    have hle := unnoticed_le b.net id
    omega
  set net : Net := { b.net with
    balance := b.net.balance - (b.deal id).amount
    pending := .payout id (b.deal id).worker (b.deal id).amount :: b.net.pending } with hnet
  have hpay : ∀ j, net.payouts j = b.net.payouts j + if id = j then 1 else 0 := by
    intro j
    simp [hnet, Net.payouts, List.countP_cons]
    omega
  have href : ∀ j, net.refunds j = b.net.refunds j := by
    intro j
    simp [hnet, Net.refunds]
  have hsame : ∀ j, net.unnoticed j = b.net.unnoticed j := by
    intro j
    simp [hnet, Net.unnoticed]
  refine ⟨fun j hj => ?_, fun j => ?_, fun j hj => ?_, fun j => href j ▸ hS.refunds_le j,
    fun j hj => ?_, fun m hm => ?_, hS.outflows, fun j hj => ?_,
    fun j hj => hS.unnoticed j (hsame j ▸ hj), ?_⟩
  · exact hS.fresh_update (hS.lt_nextId h) _ hj
  · dsimp only
    rw [hpay j]
    by_cases hne : id = j
    · subst hne
      simp [hzero]
    · simpa [hne] using hS.payouts_le j
  · by_cases hne : j = id
    · subst hne
      exact Function.update_self ..
    · dsimp only at hj ⊢
      rw [hpay j, if_neg (Ne.symm hne), Nat.add_zero] at hj
      rw [Function.update_of_ne hne]
      exact hS.paid j hj
  · dsimp only at hj ⊢
    rw [href j] at hj
    have hne : j ≠ id := fun e => by
      have hgone := hS.gone j hj
      rw [e, h] at hgone
      exact absurd hgone.1 (by simp)
    rw [Function.update_of_ne hne]
    exact hS.gone j hj
  · rcases List.mem_cons.mp hm with rfl | hm
    · exact ⟨rfl, rfl⟩
    · exact hS.pending m hm
  · exact hS.bounced_update (by decide) hj
  · have hsum := Totals.sum_add_of_eq_off (Finset.mem_range.mpr (hS.lt_nextId h))
      (f := Book.reserve { b with phase := Function.update b.phase id (some .paid), net := net })
      (g := b.reserve) fun j _ hne => reserve_congr (Function.update_of_ne hne _ _) rfl (hsame j)
    have hbefore : b.reserve id = (b.deal id).amount + (b.deal id).storage := by
      simp [Book.reserve, h, Deal.total]
    have hafter : Book.reserve { b with
        phase := Function.update b.phase id (some .paid), net := net } id =
        (b.deal id).storage := by
      simp [Book.reserve, hsame, hunn]
    have hcovered := hS.covered
    have hbalance : net.balance = b.net.balance - (b.deal id).amount := rfl
    dsimp only
    omega

lemma refund (hS : Sound b) (h : b.phase id = some .opened ∨ b.phase id = some .bounced)
    (hbal : (b.deal id).total ≤ b.net.balance) :
    Sound { b with
      phase := Function.update b.phase id none
      net := { b.net with
        balance := b.net.balance - (b.deal id).total
        pending := .refund id (b.deal id).buyer (b.deal id).total :: b.net.pending } } := by
  have hlt : id < b.nextId := by
    rcases h with h | h
    · exact hS.lt_nextId h
    · exact hS.lt_nextId h
  have hunpaid : b.phase id ≠ some .paid := by rcases h with h | h <;> simp [h]
  have hzero : b.net.payouts id = 0 := hS.payouts_eq_zero hunpaid
  have hback : b.net.refunds id = 0 := by
    by_contra hne
    have hgone := (hS.gone id (by omega)).1
    rcases h with h | h <;> exact absurd (h.symm.trans hgone) (by simp)
  set net : Net := { b.net with
    balance := b.net.balance - (b.deal id).total
    pending := .refund id (b.deal id).buyer (b.deal id).total :: b.net.pending } with hnet
  have hpay : ∀ j, net.payouts j = b.net.payouts j := by
    intro j
    simp [hnet, Net.payouts]
  have href : ∀ j, net.refunds j = b.net.refunds j + if id = j then 1 else 0 := by
    intro j
    simp [hnet, Net.refunds, List.countP_cons]
    omega
  have hsame : ∀ j, net.unnoticed j = b.net.unnoticed j := by
    intro j
    simp [hnet, Net.unnoticed]
  refine ⟨fun j hj => ?_, fun j => hpay j ▸ hS.payouts_le j, fun j hj => ?_, fun j => ?_,
    fun j hj => ?_, fun m hm => ?_, hS.outflows, fun j hj => ?_,
    fun j hj => hS.unnoticed j (hsame j ▸ hj), ?_⟩
  · exact hS.fresh_update hlt _ hj
  · dsimp only at hj ⊢
    rw [hpay j] at hj
    have hne : j ≠ id := by
      rintro rfl
      omega
    rw [Function.update_of_ne hne]
    exact hS.paid j hj
  · dsimp only
    rw [href j]
    by_cases hne : id = j
    · subst hne
      simp [hback]
    · simpa [hne] using hS.refunds_le j
  · by_cases hne : j = id
    · subst hne
      exact ⟨Function.update_self .., hlt⟩
    · dsimp only at hj ⊢
      rw [href j, if_neg (Ne.symm hne), Nat.add_zero] at hj
      rw [Function.update_of_ne hne]
      exact hS.gone j hj
  · rcases List.mem_cons.mp hm with rfl | hm
    · exact ⟨rfl, rfl⟩
    · exact hS.pending m hm
  · exact hS.bounced_update (by decide) hj
  · have hsum := Totals.sum_add_of_eq_off (Finset.mem_range.mpr hlt)
      (f := Book.reserve { b with phase := Function.update b.phase id none, net := net })
      (g := b.reserve) fun j _ hne => reserve_congr (Function.update_of_ne hne _ _) rfl (hsame j)
    have hbefore : b.reserve id = (b.deal id).total := by
      rcases h with h | h <;> simp [Book.reserve, h]
    have hafter : Book.reserve { b with
        phase := Function.update b.phase id none, net := net } id = 0 := by
      simp [Book.reserve]
    have hcovered := hS.covered
    have hbalance : net.balance = b.net.balance - (b.deal id).total := rfl
    dsimp only
    omega

/-- What has left the account for an escrow: nothing, the payout, or the refund. -/
lemma outflows_eq (hS : Sound b) (id : ℕ) :
    b.net.outflows.filter (fun o => o.id = id) = [] ∨ id < b.nextId ∧
      (b.net.outflows.filter (fun o => o.id = id) =
          [.payout id (b.deal id).worker (b.deal id).amount] ∨
        b.net.outflows.filter (fun o => o.id = id) =
          [.refund id (b.deal id).buyer (b.deal id).total]) := by
  have hsplit : ∀ l : List Outflow, (l.filter fun o => o.id = id).length =
      l.countP (Outflow.paysOut id) + l.countP (Outflow.refunds id) := by
    intro l
    induction l with
    | nil => rfl
    | cons o l ih =>
      by_cases h : o.id = id
      · cases o <;> simp_all [Outflow.id] <;> omega
      · cases o <;> simp_all [Outflow.id]
  have hpay := hS.payouts_le id
  have href := hS.refunds_le id
  have hboth : b.net.payouts id = 0 ∨ b.net.refunds id = 0 := by
    by_contra hne
    rw [not_or] at hne
    have hpaid := hS.paid id (Nat.pos_of_ne_zero hne.1)
    rw [(hS.gone id (Nat.pos_of_ne_zero hne.2)).1] at hpaid
    cases hpaid
  have hlen := hsplit b.net.outflows
  rw [Net.payouts] at hpay hboth
  rw [Net.refunds] at href hboth
  cases hl : b.net.outflows.filter (fun o => o.id = id) with
  | nil => exact .inl rfl
  | cons o l =>
    cases l with
    | nil =>
      have ho : o ∈ b.net.outflows ∧ o.id = id := by
        have hmem : o ∈ b.net.outflows.filter (fun o => o.id = id) := hl ▸ List.mem_singleton_self o
        simpa using hmem
      have hagrees := hS.outflows o ho.1
      right
      cases o with
      | payout j who a =>
        obtain rfl : j = id := ho.2
        obtain ⟨rfl, rfl⟩ : who = _ ∧ a = _ := hagrees
        exact ⟨hS.lt_nextId (hS.paid j (payouts_pos_of_outflow ho.1)), .inl rfl⟩
      | refund j who a =>
        obtain rfl : j = id := ho.2
        obtain ⟨rfl, rfl⟩ : who = _ ∧ a = _ := hagrees
        exact ⟨(hS.gone j (refunds_pos_of_outflow ho.1)).2, .inr rfl⟩
    | cons o' l =>
      rw [hl] at hlen
      simp only [List.length_cons] at hlen
      omega

end Sound

/-! ### Runs -/

/-- Every move keeps the book sound. -/
theorem Move.sound (h : Move b b') (hS : Sound b) : Sound b' := by
  cases h with
  | receive n => exact hS.receive n
  | opens d => exact hS.opens d
  | send m hm => exact hS.send hm
  | drop i m rest h _ => exact hS.drop h
  | pay id h hbal => exact hS.pay h hbal
  | settle i ok net h => exact hS.settle (settle_ok h)
  | notice i id rest h => exact hS.notice h
  | refund id h hbal => exact hS.refund h hbal

theorem sound_of_moves (h : Relation.ReflTransGen Move b b') (hS : Sound b) : Sound b' := by
  induction h with
  | refl => exact hS
  | tail _ hmove ih => exact hmove.sound ih

end Suwappu.Near
