import Suwappu.Near.ArbiterV3.Methods
import Suwappu.Near.Records
import Suwappu.Near.Sound

/-!
# An escrow pays once

Every step of the contract and its account is a sequence of moves of the book of escrows, so the
book's invariant holds in every run. What the book leaves out, the registry of pull requests, has
an invariant of its own.
-/

namespace Suwappu.Near.ArbiterV3

open Checked InFlight Relation

variable {host : Host} {serde : Serde} {c c' : ArbiterEscrow} {e e' : Escrow} {env : Env}
  {w w' : World} {opened : ℕ → Option Escrow} {id i : ℕ}

/-! ### Records and registry -/

/-- The records are in order, and every escrow on a pull request holds its key. -/
structure Recorded (serde : Serde) (c : ArbiterEscrow) (opened : ℕ → Option Escrow) : Prop where
  records : Records Escrow.origin c.nextId c.escrows opened
  index : ∀ id e repo pr, c.escrows id = some e → e.rubric = RUBRIC_GITHUB_PR →
    e.pullRequest serde = some (repo, pr) → c.prIndex (prKey e.buyer repo pr) = some id
  named : ∀ id e, opened id = some e → e.rubric = RUBRIC_GITHUB_PR →
    ∃ repo pr, e.pullRequest serde = some (repo, pr)

namespace Recorded

lemma empty : Recorded serde .default fun _ => none where
  records := ⟨fun _ _ h => (by cases h), fun _ h => absurd h (Nat.not_lt_zero _)⟩
  index _ _ _ _ h := by cases h
  named _ _ h := by cases h

/-- A resolution writes over an escrow. -/
lemma insert (hR : Recorded serde c opened) (he : c.escrows id = some e)
    (ho : e'.origin = e.origin) : Recorded serde (c.insert id e') opened where
  records := hR.records.insert he ho
  index j d repo pr hd hrubric hpr := by
    by_cases hj : j = id
    · subst hj
      simp only [ArbiterEscrow.insert, Function.update_self, Option.some.injEq] at hd
      subst hd
      have hbuyer : e'.buyer = e.buyer := (congrArg Escrow.buyer ho :)
      have hr : e'.rubric = e.rubric := (congrArg Escrow.rubric ho :)
      rw [← pullRequest_origin, ho, pullRequest_origin] at hpr
      rw [hbuyer]
      exact hR.index j e repo pr he (hr.symm.trans hrubric) hpr
    · simp only [ArbiterEscrow.insert, Function.update_of_ne hj] at hd
      exact hR.index j d repo pr hd hrubric hpr
  named := hR.named

/-- An escrow opens under a key that was free. -/
lemma create (hR : Recorded serde c opened) (ho : e.origin = e)
    (hnext : c'.nextId = c.nextId + 1)
    (hescrows : c'.escrows = Function.update c.escrows c.nextId (some e))
    (hindex : (e.rubric ≠ RUBRIC_GITHUB_PR ∧ c'.prIndex = c.prIndex) ∨
      ∃ repo pr, e.pullRequest serde = some (repo, pr) ∧
        c.prIndex (prKey e.buyer repo pr) = none ∧
        c'.prIndex = Function.update c.prIndex (prKey e.buyer repo pr) (some c.nextId)) :
    Recorded serde c' (Function.update opened c.nextId (some e)) where
  records := hnext ▸ hescrows ▸ hR.records.create ho
  index j d repo pr hd hrubric hpr := by
    rw [hescrows] at hd
    by_cases hj : j = c.nextId
    · subst hj
      rw [Function.update_self, Option.some.injEq] at hd
      subst hd
      rcases hindex with ⟨hrubric', -⟩ | ⟨repo', pr', hpr', -, hindex⟩
      · exact absurd hrubric hrubric'
      · rw [hpr, Option.some.injEq, Prod.mk.injEq] at hpr'
        rw [hindex, hpr'.1, hpr'.2, Function.update_self]
    · rw [Function.update_of_ne hj] at hd
      have hold := hR.index j d repo pr hd hrubric hpr
      rcases hindex with ⟨-, hindex⟩ | ⟨repo', pr', -, hfree, hindex⟩
      · rw [hindex, hold]
      · have hne : prKey d.buyer repo pr ≠ prKey e.buyer repo' pr' := fun heq => by
          rw [heq, hfree] at hold
          cases hold
        rw [hindex, Function.update_of_ne hne, hold]
  named j d hd hrubric := by
    by_cases hj : j = c.nextId
    · subst hj
      rw [Function.update_self, Option.some.injEq] at hd
      subst hd
      rcases hindex with ⟨hrubric', -⟩ | ⟨repo, pr, hpr, -⟩
      · exact absurd hrubric hrubric'
      · exact ⟨repo, pr, hpr⟩
    · rw [Function.update_of_ne hj] at hd
      exact hR.named j d hd hrubric

/-- An escrow leaves with its key. -/
lemma remove (hR : Recorded serde c opened) (he : c.escrows id = some e) :
    Recorded serde (dropIndex serde { c with escrows := Function.update c.escrows id none } e)
      opened where
  records := by
    rw [dropIndex_nextId, dropIndex_escrows]
    exact hR.records.remove id
  index j d repo pr hd hrubric hpr := by
    rw [dropIndex_escrows] at hd
    by_cases hj : j = id
    · subst hj
      simp at hd
    · dsimp only at hd
      rw [Function.update_of_ne hj] at hd
      have hold := hR.index j d repo pr hd hrubric hpr
      rw [dropIndex_prIndex]
      · exact hold
      · intro repo' pr' hrubric' hpr' heq
        have hself := hR.index id e repo' pr' he hrubric' hpr'
        rw [heq, hold, Option.some.injEq] at hself
        exact hj hself
  named := hR.named

end Recorded

/-! ### The book -/

def Escrow.deal (e : Escrow) : Deal := ⟨e.buyer, e.worker, e.amount, e.storageDeposit⟩

def World.book (w : World) : Book where
  nextId := w.contract.nextId
  phase := phases Escrow.status w.contract.escrows
  deal := deals Escrow.deal w.opened
  net := w.net

/-- The book is sound and the records are in order. -/
structure Inv (serde : Serde) (w : World) : Prop where
  sound : Sound w.book
  recorded : Recorded serde w.contract w.opened

lemma inv_init (balance : ℕ) : Inv serde (.init balance) where
  sound := sound_empty rfl (fun _ => rfl) rfl rfl
  recorded := .empty

namespace Recorded

lemma deal_eq (hR : Recorded serde w.contract w.opened) (he : w.contract.escrows id = some e) :
    w.book.deal id = e.deal :=
  (deals_of_some (hR.records.origin id e he) :)

end Recorded

/-! ### Steps -/

lemma startPayout_cases (w : World) (c : ArbiterEscrow) (net : Net) (id : ℕ)
    (payout : Option (String × ℕ)) :
    (startPayout w c net id payout = { w with contract := c, net := net } ∧ payout = none) ∨
      startPayout w c net id payout = { w with net := net } ∨
      ∃ worker amount, payout = some (worker, amount) ∧ amount ≤ net.balance ∧
        startPayout w c net id payout = { w with
          contract := c
          net := { net with
            balance := net.balance - amount
            pending := .payout id worker amount :: net.pending } } := by
  cases payout with
  | none => exact .inl ⟨rfl, rfl⟩
  | some p =>
    obtain ⟨worker, amount⟩ := p
    by_cases hbal : amount ≤ net.balance
    · exact .inr (.inr ⟨worker, amount, rfl, hbal, by simp [startPayout, Net.transfer, hbal]⟩)
    · exact .inr (.inl (by simp [startPayout, Net.transfer, hbal]))

/-- A step of the contract keeps its records. -/
theorem step_recorded {ev : Event} (hR : Recorded host.serde w.contract w.opened)
    (h : step host w ev = .ok w') : Recorded host.serde w'.contract w'.opened := by
  cases ev with
  | createEscrow env before after worker terms =>
    simp only [step, bind_ok_iff, pure_ok_iff] at h
    obtain ⟨⟨c, id⟩, hc, rfl⟩ := h
    obtain ⟨rfl, e, ho, -, hnext, hescrows, hindex⟩ := createEscrow_ok hc
    dsimp only
    rw [hescrows, Function.update_self]
    exact hR.create ho hnext hescrows hindex
  | resolve env id =>
    simp only [step, bind_ok_iff, pure_ok_iff] at h
    obtain ⟨⟨c, m⟩, hc, rfl⟩ := h
    obtain ⟨-, e, e', he, -, rfl, -, ho⟩ := resolve_ok hc
    exact hR.insert he ho
  | onArbiterResult i result =>
    simp only [step] at h
    split at h
    · rename_i id nonce request rest htake
      cases h
      cases hc : onArbiterResult host.serde w.contract id nonce result with
      | mk c payout =>
        have hc' : Recorded host.serde c w.opened := by
          rcases onArbiterResult_cases hc with ⟨rfl, -⟩ | ⟨e, e', he, -, -, rfl, ho, -⟩
          · exact hR
          · exact hR.insert he ho
        rcases startPayout_cases w c { w.net with pending := rest } id payout with
          ⟨hw, -⟩ | hw | ⟨worker, amount, -, -, hw⟩
        · rw [hw]
          exact hc'
        · rw [hw]
          exact hR
        · rw [hw]
          exact hc'
    · cases h
  | settle i ok =>
    simp only [step, bind_ok_iff, pure_ok_iff] at h
    obtain ⟨net, -, rfl⟩ := h
    exact hR
  | onPayout i =>
    simp only [step] at h
    split at h
    · rename_i id ok rest htake
      cases h
      cases ok with
      | true  => exact hR
      | false =>
        rcases onPayout_false w.contract id with ⟨heq, -⟩ | ⟨e, he, -, heq⟩
        · dsimp only
          rw [heq]
          exact hR
        · dsimp only
          rw [heq]
          exact hR.insert he rfl
    · cases h
  | lose i =>
    simp only [step, bind_ok_iff, pure_ok_iff] at h
    obtain ⟨net, -, rfl⟩ := h
    exact hR
  | cancelExpired env id =>
    simp only [step, bind_ok_iff, pure_ok_iff] at h
    obtain ⟨⟨c, buyer, amount⟩, hc, net, -, rfl⟩ := h
    obtain ⟨e, he, -, -, rfl, -, -⟩ := cancelExpired_ok hc
    exact hR.remove he
  | resetStuck env id =>
    simp only [step, bind_ok_iff, pure_ok_iff] at h
    obtain ⟨c, hc, rfl⟩ := h
    obtain ⟨e, he, -, rfl⟩ := resetStuck_ok hc
    exact hR.insert he rfl
  | receive amount =>
    cases h
    exact hR

lemma book_update (e' : Escrow) (net : Net) :
    World.book { w with contract := w.contract.insert id e', net := net } =
      { w.book with
        phase := Function.update w.book.phase id (some e'.status.phase)
        net := net } := by
  simp only [World.book, ArbiterEscrow.insert, phases_update, Option.map_some]

lemma book_remove (e : Escrow) (net : Net) :
    World.book { w with
      contract := dropIndex serde
        { w.contract with escrows := Function.update w.contract.escrows id none } e
      net := net } =
      { w.book with phase := Function.update w.book.phase id none, net := net } := by
  simp only [World.book, dropIndex_escrows, dropIndex_nextId, phases_update, Option.map_none]

/-- An escrow may change within its phase. -/
lemma book_insert (he : w.contract.escrows id = some e) (hphase : e'.status.phase = e.status.phase)
    (net : Net) : World.book { w with contract := w.contract.insert id e', net := net } =
      { w.book with net := net } := by
  simp only [World.book, ArbiterEscrow.insert, phases_update_same he hphase]

/-- A step of the contract and its account is a sequence of moves. -/
theorem step_moves {ev : Event} (hR : Recorded host.serde w.contract w.opened)
    (h : step host w ev = .ok w') : ReflTransGen Move w.book w'.book := by
  cases ev with
  | createEscrow env before after worker terms =>
    simp only [step, bind_ok_iff, pure_ok_iff] at h
    obtain ⟨⟨c, id⟩, hc, rfl⟩ := h
    obtain ⟨rfl, e, ho, hdeposit, hnext, hescrows, -⟩ := createEscrow_ok hc
    have hopens := Move.opens w.book e.deal
    have hphase : e.status.phase = .opened := by rw [← ho]; rfl
    refine .single ?_
    convert hopens using 1
    simp only [World.book, hnext, hescrows, Function.update_self, phases_update, deals_update,
      Option.map_some, hphase, Deal.total, Escrow.deal, hdeposit]
  | resolve env id =>
    simp only [step, bind_ok_iff, pure_ok_iff] at h
    obtain ⟨⟨c, m⟩, hc, rfl⟩ := h
    obtain ⟨hm, e, e', he, hs, rfl, hs', -⟩ := resolve_ok hc
    rw [book_insert he (by rw [hs, hs']; rfl)]
    exact .single (.send _ m hm)
  | onArbiterResult i result =>
    simp only [step] at h
    split at h
    · rename_i id nonce request rest htake
      cases h
      have hdrop : Move w.book { w.book with net := { w.net with pending := rest } } :=
        .drop _ i _ rest htake (.inl trivial)
      cases hc : onArbiterResult host.serde w.contract id nonce result with
      | mk c payout =>
        rcases startPayout_cases w c { w.net with pending := rest } id payout with
          ⟨hw, hnone⟩ | hw | ⟨worker, amount, hsome, hbal, hw⟩
        · rw [hw]
          rcases onArbiterResult_cases hc with ⟨rfl, -⟩ | ⟨e, e', he, hs, -, rfl, -, hpay⟩
          · exact .single hdrop
          · rcases hpay with ⟨hs', -⟩ | ⟨-, hpay⟩
            · rw [book_insert he (by rw [hs, hs']; rfl)]
              exact .single hdrop
            · rw [hnone] at hpay
              cases hpay
        · rw [hw]
          exact .single hdrop
        · rw [hw]
          rcases onArbiterResult_cases hc with ⟨-, hnone⟩ | ⟨e, e', he, hs, -, rfl, -, hpay⟩
          · rw [hnone] at hsome
            cases hsome
          · rcases hpay with ⟨-, hnone⟩ | ⟨hs', hpay⟩
            · rw [hnone] at hsome
              cases hsome
            · rw [hsome, Option.some.injEq, Prod.mk.injEq] at hpay
              obtain ⟨rfl, rfl⟩ := hpay
              have hdeal := hR.deal_eq he
              have hphase : w.book.phase id = some .opened :=
                (phases_of_some he).trans (by rw [hs]; rfl)
              have hpays := Move.pay { w.book with net := { w.net with pending := rest } } id
                hphase (hdeal ▸ hbal)
              dsimp only at hpays
              rw [hdeal] at hpays
              rw [book_update, hs']
              exact (ReflTransGen.single hdrop).tail hpays
    · cases h
  | settle i ok =>
    simp only [step, bind_ok_iff, pure_ok_iff] at h
    obtain ⟨net, hnet, rfl⟩ := h
    exact .single (.settle _ i ok net hnet)
  | onPayout i =>
    simp only [step] at h
    split at h
    · rename_i id ok rest htake
      cases h
      cases ok with
      | true  => exact .single (.drop _ i _ rest htake (.inl trivial))
      | false =>
        rcases onPayout_false w.contract id with ⟨heq, -⟩ | ⟨e, he, hs, heq⟩
        · rw [heq]
          exact .single (.drop _ i _ rest htake (.inr ⟨id, rfl⟩))
        · rw [heq]
          rw [book_update]
          exact .single (.notice _ i id rest htake)
    · cases h
  | lose i =>
    simp only [step, bind_ok_iff, pure_ok_iff] at h
    obtain ⟨net, hnet, rfl⟩ := h
    obtain ⟨m, rest, htake, hm, rfl⟩ := lose_ok hnet
    exact .single (.drop _ i m rest htake hm)
  | cancelExpired env id =>
    simp only [step, bind_ok_iff, pure_ok_iff] at h
    obtain ⟨⟨c, buyer, amount⟩, hc, net, hnet, rfl⟩ := h
    obtain ⟨e, he, -, hstatus, rfl, rfl, rfl⟩ := cancelExpired_ok hc
    obtain ⟨hbal, rfl⟩ := transfer_ok hnet
    have hdeal := hR.deal_eq he
    have hphase : w.book.phase id = some e.status.phase := phases_of_some he
    have hopen : w.book.phase id = some .opened ∨ w.book.phase id = some .bounced := by
      rw [hphase]
      rcases hstatus with hs | ⟨hs, -⟩
      · rw [hs]
        exact .inr rfl
      · rw [hs]
        exact .inl rfl
    have hrefund := Move.refund w.book id hopen (hdeal ▸ hbal)
    rw [hdeal] at hrefund
    rw [book_remove]
    exact .single hrefund
  | resetStuck env id =>
    simp only [step, bind_ok_iff, pure_ok_iff] at h
    obtain ⟨c, hc, rfl⟩ := h
    obtain ⟨e, he, hs, rfl⟩ := resetStuck_ok hc
    rw [book_insert he (by rw [hs]; rfl)]
    exact .refl
  | receive amount =>
    cases h
    exact .single (.receive _ amount)

lemma step_inv {ev : Event} (hI : Inv host.serde w) (h : step host w ev = .ok w') :
    Inv host.serde w' where
  sound := sound_of_moves (step_moves hI.recorded h) hI.sound
  recorded := step_recorded hI.recorded h

lemma run_inv (host : Host) (balance : ℕ) (events : List Event) :
    Inv host.serde ((machine host).run (.init balance) events) :=
  Machine.run_induction (M := machine host) (fun _ _ _ hI h => step_inv hI h) (inv_init balance)
    events

/-! ### Refunds -/

/-- Only a cancellation starts a refund, and it is the buyer's. -/
lemma refund_of_step {ev : Event} (h : step host w ev = .ok w')
    (hlt : w.net.refunds id < w'.net.refunds id) :
    ∃ env e, ev = .cancelExpired env id ∧ w.contract.escrows id = some e ∧
      env.predecessor = e.buyer ∧
      (e.deadlineUnix + REFUND_GRACE_SECS ≤ env.now ∨ e.status = .PayoutFailed) := by
  cases ev with
  | createEscrow env before after worker terms =>
    simp only [step, bind_ok_iff, pure_ok_iff] at h
    obtain ⟨_, -, rfl⟩ := h
    exact absurd hlt (lt_irrefl _)
  | resolve env id =>
    simp only [step, bind_ok_iff, pure_ok_iff] at h
    obtain ⟨⟨c, m⟩, hc, rfl⟩ := h
    exact absurd hlt (refunds_send (resolve_ok hc).1 w.net _).not_gt
  | onArbiterResult i result =>
    simp only [step] at h
    split at h
    · rename_i j nonce request rest htake
      cases h
      have hle := refunds_rest_le htake id
      rcases startPayout_cases w (onArbiterResult host.serde w.contract j nonce result).1
          { w.net with pending := rest } j (onArbiterResult host.serde w.contract j nonce result).2
        with ⟨hw, -⟩ | hw | ⟨worker, amount, -, -, hw⟩
      · rw [hw] at hlt
        exact absurd hlt hle.not_gt
      · rw [hw] at hlt
        exact absurd hlt hle.not_gt
      · rw [hw] at hlt
        simp [Net.refunds] at hlt hle
        omega
    · cases h
  | settle i ok =>
    simp only [step, bind_ok_iff, pure_ok_iff] at h
    obtain ⟨net, hnet, rfl⟩ := h
    exact absurd hlt ((settle_ok hnet).refunds_le id).not_gt
  | onPayout i =>
    simp only [step] at h
    split at h
    · rename_i htake
      cases h
      exact absurd hlt (refunds_rest_le htake id).not_gt
    · cases h
  | lose i =>
    simp only [step, bind_ok_iff, pure_ok_iff] at h
    obtain ⟨net, hnet, rfl⟩ := h
    obtain ⟨m, rest, htake, -, rfl⟩ := lose_ok hnet
    exact absurd hlt (refunds_rest_le htake id).not_gt
  | cancelExpired env j =>
    simp only [step, bind_ok_iff, pure_ok_iff] at h
    obtain ⟨⟨c, buyer, amount⟩, hc, net, hnet, rfl⟩ := h
    obtain ⟨e, he, hbuyer, hstatus, rfl, rfl, rfl⟩ := cancelExpired_ok hc
    obtain ⟨-, rfl⟩ := transfer_ok hnet
    obtain rfl : j = id := by
      by_contra hne
      simp [Net.refunds, hne] at hlt
    exact ⟨env, e, rfl, he, hbuyer, hstatus.symm.imp_left And.right⟩
  | resetStuck env id =>
    simp only [step, bind_ok_iff, pure_ok_iff] at h
    obtain ⟨c, -, rfl⟩ := h
    exact absurd hlt (lt_irrefl _)
  | receive amount =>
    cases h
    exact absurd hlt (lt_irrefl _)

/-! ### What holds in every run -/

/-- What the contract owes on escrow `id`, when it is neither paid nor removed. -/
def ArbiterEscrow.due (c : ArbiterEscrow) (id : ℕ) : ℕ :=
  match c.escrows id with
  | some e => if e.status = .Paid then 0 else e.amount + e.storageDeposit
  | none   => 0

/-- The buyer, the lower-cased repository and the number of the pull request of an escrow. -/
def Escrow.subject (serde : Serde) (e : Escrow) : Option (String × List Char × ℕ) :=
  (e.pullRequest serde).map fun p => (e.buyer, Terms.toAsciiLowercase p.1.toList, p.2)

lemma due_le_reserve (hR : Recorded serde w.contract w.opened) (id : ℕ) :
    w.contract.due id ≤ w.book.reserve id := by
  unfold ArbiterEscrow.due
  cases he : w.contract.escrows id with
  | none => exact Nat.zero_le _
  | some e =>
    have hdeal := hR.deal_eq he
    have hphase : w.book.phase id = some e.status.phase := phases_of_some he
    cases hs : e.status <;>
      simp [Book.reserve, hphase, hs, EscrowStatus.phase, hdeal, Escrow.deal, Deal.total]

lemma due_covered (hI : Inv serde w) (ids : Finset ℕ) :
    ∑ id ∈ ids, w.contract.due id ≤ w.net.balance := by
  have hfresh : ∀ id ∈ ids, w.contract.due id ≠ 0 → id ∈ Finset.range w.contract.nextId := by
    intro id _ hne
    by_contra hout
    have hle : w.contract.nextId ≤ id := by simpa using hout
    have hnone : w.book.phase id = none := hI.sound.fresh id hle
    have he : w.contract.escrows id = none := by
      simpa [World.book, phases] using hnone
    exact hne (by rw [ArbiterEscrow.due, he])
  calc ∑ id ∈ ids, w.contract.due id
      ≤ ∑ id ∈ Finset.range w.contract.nextId, w.contract.due id :=
        Finset.sum_le_sum_of_ne_zero hfresh
    _ ≤ ∑ id ∈ Finset.range w.contract.nextId, w.book.reserve id :=
        Finset.sum_le_sum fun id _ => due_le_reserve hI.recorded id
    _ ≤ w.net.balance := hI.sound.covered

/-- An escrow whose payout arrived is still there, and paid. -/
lemma paid_of_outflow (hI : Inv serde w) {worker : String} {amount : ℕ}
    (h : .payout id worker amount ∈ w.net.outflows) :
    ∃ e, w.contract.escrows id = some e ∧ e.status = .Paid := by
  have hphase : w.book.phase id = some .paid := hI.sound.paid id (Sound.payouts_pos_of_outflow h)
  simp only [World.book, phases, Option.map_eq_some_iff] at hphase
  obtain ⟨e, he, hp⟩ := hphase
  refine ⟨e, he, ?_⟩
  cases hs : e.status <;> simp [hs, EscrowStatus.phase] at hp ⊢

/-- Two escrows on one pull request of one buyer hold the same key, so they are the same. -/
lemma subject_inj (hR : Recorded serde w.contract w.opened) {id' : ℕ}
    (he : w.contract.escrows id = some e) (he' : w.contract.escrows id' = some e')
    (hr : e.rubric = RUBRIC_GITHUB_PR) (hr' : e'.rubric = RUBRIC_GITHUB_PR)
    (hsubject : e.subject serde = e'.subject serde) : id = id' := by
  obtain ⟨repo, pr, hpr⟩ := hR.named id e.origin (hR.records.origin id e he) hr
  obtain ⟨repo', pr', hpr'⟩ := hR.named id' e'.origin (hR.records.origin id' e' he') hr'
  rw [pullRequest_origin] at hpr hpr'
  simp only [Escrow.subject, hpr, hpr', Option.map_some, Option.some.injEq, Prod.mk.injEq]
    at hsubject
  obtain ⟨hbuyer, hrepo, hnum⟩ := hsubject
  have hkey : prKey e.buyer repo pr = prKey e'.buyer repo' pr' := by
    simp only [prKey, hbuyer, hrepo, hnum]
  have hindex := hR.index id e repo pr he hr hpr
  rw [hkey, hR.index id' e' repo' pr' he' hr' hpr', Option.some.injEq] at hindex
  exact hindex.symm

/-- Whatever happens in whatever order, an escrow pays once: its worker, or its buyer, who is early
only after a payout that failed. The balance covers what is still owed, and a pull request of a
buyer pays for one escrow. -/
theorem pays_once (host : Host) (balance : ℕ) (events : List Event) :
    let w := (machine host).run (.init balance) events
    (∀ id, w.net.outflows.filter (fun o => o.id = id) = [] ∨ ∃ e, w.opened id = some e ∧
      (w.net.outflows.filter (fun o => o.id = id) = [.payout id e.worker e.amount] ∨
        w.net.outflows.filter (fun o => o.id = id) =
          [.refund id e.buyer (e.amount + e.storageDeposit)])) ∧
    (∀ ids : Finset ℕ, ∑ id ∈ ids, w.contract.due id ≤ w.net.balance) ∧
    (∀ ev w' id, step host w ev = .ok w' → w.net.refunds id < w'.net.refunds id →
      ∃ env e, ev = .cancelExpired env id ∧ w.opened id = some e ∧ env.predecessor = e.buyer ∧
        (e.deadlineUnix + REFUND_GRACE_SECS ≤ env.now ∨ id ∈ w.net.failedPayouts)) ∧
    ∀ id id' e e' worker worker' amount amount',
      .payout id worker amount ∈ w.net.outflows → .payout id' worker' amount' ∈ w.net.outflows →
      w.opened id = some e → w.opened id' = some e' →
      e.rubric = RUBRIC_GITHUB_PR → e'.rubric = RUBRIC_GITHUB_PR →
      e.subject host.serde = e'.subject host.serde → id = id' := by
  intro w
  have hI : Inv host.serde w := run_inv host balance events
  refine ⟨fun id => ?_, due_covered hI, fun ev w' id h hlt => ?_, ?_⟩
  · rcases hI.sound.outflows_eq id with h | ⟨hlt, h⟩
    · exact .inl h
    · obtain ⟨e, he⟩ := hI.recorded.records.known id hlt
      have hdeal : w.book.deal id = e.deal := deals_of_some he
      rw [hdeal] at h
      exact .inr ⟨e, he, h⟩
  · obtain ⟨env, e, rfl, he, hbuyer, htime⟩ := refund_of_step h hlt
    refine ⟨env, e.origin, rfl, hI.recorded.records.origin id e he, hbuyer,
      htime.imp_right fun hs => ?_⟩
    exact hI.sound.bounced id ((phases_of_some he).trans (by rw [hs]; rfl))
  · intro id id' e e' worker worker' amount amount' hout hout' ho ho' hr hr' hsubject
    obtain ⟨d, hd, -⟩ := paid_of_outflow hI hout
    obtain ⟨d', hd', -⟩ := paid_of_outflow hI hout'
    rw [hI.recorded.records.origin id d hd, Option.some.injEq] at ho
    rw [hI.recorded.records.origin id' d' hd', Option.some.injEq] at ho'
    subst ho ho'
    exact subject_inj hI.recorded hd hd' hr hr' hsubject

end Suwappu.Near.ArbiterV3
