import Suwappu.Near.ArbiterV2.Methods
import Suwappu.Near.Records
import Suwappu.Near.Sound

/-!
# When the second version pays once

The callback of a resolution writes over whatever escrow it finds, so a callback of an earlier round
can pay an escrow that a later round has paid already. As long as every callback that finds its
escrow belongs to the last round, each step is a sequence of moves of the book of escrows.
-/

namespace Suwappu.Near.ArbiterV2

open Checked InFlight Relation

variable {host : Host} {serde : Serde} {c c' : ArbiterEscrow} {e e' : Escrow} {env : Env}
  {w w' : World} {id i : ℕ}

/-! ### Rounds in flight -/

def Message.ofRound (id round : ℕ) : Message → Bool
  | .execution i r _ => i = id ∧ r = round
  | _                => false

/-- The executions in flight of one round of an escrow. -/
def execs (net : Net) (id round : ℕ) : ℕ := net.pending.countP (Message.ofRound id round)

lemma execs_rest {net : Net} {m : Message} {rest : List Message}
    (h : take net.pending i = some (m, rest)) (id round : ℕ) :
    execs net id round =
      execs { net with pending := rest } id round + if Message.ofRound id round m then 1 else 0 :=
  countP_take h

lemma execs_rest_le {net : Net} {m : Message} {rest : List Message}
    (h : take net.pending i = some (m, rest)) (id round : ℕ) :
    execs { net with pending := rest } id round ≤ execs net id round := by
  rw [execs_rest h]
  exact Nat.le_add_right _ _

lemma execs_settle_le {net net' : Net} (h : Settled net i net') (id round : ℕ) :
    execs net' id round ≤ execs net id round := by
  obtain ⟨m, rest, htake, hrest | ⟨id', ok, hrest⟩⟩ := h.pending
  · have hle := execs_rest_le htake id round
    rwa [execs, ← hrest] at hle
  · have hle := execs_rest_le htake id round
    rw [execs, hrest]
    simpa [execs, Message.ofRound] using hle

/-- An escrow has at most one execution of its last round in flight, and is open while it has. -/
structure Rounds (w : World) : Prop where
  bound : ∀ id round, w.rounds id < round → execs w.net id round = 0
  once : ∀ id, execs w.net id (w.rounds id) ≤ 1
  live : ∀ id e, w.contract.escrows id = some e → 0 < execs w.net id (w.rounds id) →
    e.status.phase = .opened

lemma Rounds.weaken (hR : Rounds w) (hrounds : w'.rounds = w.rounds)
    (hexecs : ∀ id round, execs w'.net id round ≤ execs w.net id round)
    (hlive : ∀ id e, w'.contract.escrows id = some e → 0 < execs w'.net id (w.rounds id) →
      e.status.phase = .opened) : Rounds w' where
  bound id round h := Nat.le_zero.mp (hR.bound id round (hrounds ▸ h) ▸ hexecs id round)
  once id := hrounds ▸ (hexecs id _).trans (hR.once id)
  live id e he h := hlive id e he (hrounds ▸ h)

/-! ### The book -/

def Escrow.deal (e : Escrow) : Deal := ⟨e.buyer, e.worker, e.amount, e.storageDeposit⟩

def World.book (w : World) : Book where
  nextId := w.contract.nextId
  phase := phases Escrow.status w.contract.escrows
  deal := deals Escrow.deal w.opened
  net := w.net

/-- The book is sound, the records and the rounds are in order, and no late callback changed
anything. -/
structure Inv (w : World) : Prop where
  sound : Sound w.book
  records : Records Escrow.origin w.contract.nextId w.contract.escrows w.opened
  rounds : Rounds w
  untouched : w.overwritten = []

lemma inv_init (balance : ℕ) : Inv (.init balance) where
  sound := sound_empty rfl (fun _ => rfl) rfl rfl
  records := ⟨fun _ _ h => (by cases h), fun _ h => absurd h (Nat.not_lt_zero _)⟩
  rounds := ⟨fun _ _ _ => rfl, fun _ => Nat.zero_le _, fun _ _ h => (by cases h)⟩
  untouched := rfl

lemma Inv.deal_eq (hI : Inv w) (he : w.contract.escrows id = some e) :
    w.book.deal id = e.deal :=
  (deals_of_some (hI.records.origin id e he) :)

lemma book_phase (he : w.contract.escrows id = some e) : w.book.phase id = some e.status.phase :=
  phases_of_some he

lemma book_update (e' : Escrow) (net : Net) :
    World.book { w with contract := w.contract.insert id e', net := net } =
      { w.book with
        phase := Function.update w.book.phase id (some e'.status.phase)
        net := net } := by
  simp only [World.book, ArbiterEscrow.insert, phases_update, Option.map_some]

lemma book_remove (e : Escrow) (net : Net) :
    World.book { w with
      contract := dropIndex serde
        { w.contract with escrows := Function.update w.contract.escrows id none } e
      net := net } =
      { w.book with phase := Function.update w.book.phase id none, net := net } := by
  simp only [World.book, dropIndex_escrows, dropIndex_nextId, phases_update, Option.map_none]

/-- An escrow may change within its phase. -/
lemma book_insert (he : w.contract.escrows id = some e) (hphase : e'.status.phase = e.status.phase)
    (net : Net) : World.book { w with contract := w.contract.insert id e', net := net } =
      { w.book with net := net } := by
  simp only [World.book, ArbiterEscrow.insert, phases_update_same he hphase]

/-! ### Callbacks of the last round -/

/-- A callback that finds its escrow is of the last round. -/
def Current (w : World) : Event → Prop
  | .onArbiterResult i _ =>
    match take w.net.pending i with
    | some (.execution id round _, _) => (w.contract.escrows id).isSome → round = w.rounds id
    | _                               => True
  | _ => True

instance (w : World) (ev : Event) : Decidable (Current w ev) := by
  unfold Current
  split
  · split <;> infer_instance
  · infer_instance

/-- What the callback of a resolution leaves behind. -/
lemma answer_cases (serde : Serde) (w : World) (net : Net) (id : ℕ)
    (result : Option (List UInt8)) :
    answer w net id (onArbiterResult serde w.contract id result) = { w with net := net } ∨
      ∃ e e', w.contract.escrows id = some e ∧ e'.origin = e.origin ∧
        ((e'.status = .Created ∧ answer w net id (onArbiterResult serde w.contract id result) =
            { w with contract := w.contract.insert id e', net := net }) ∨
          (e'.status = .Paid ∧ e.amount ≤ net.balance ∧
            answer w net id (onArbiterResult serde w.contract id result) =
              { w with
                contract := w.contract.insert id e'
                net := { net with
                  balance := net.balance - e.amount
                  pending := .payout id e.worker e.amount :: net.pending } })) := by
  rcases onArbiterResult_cases serde w.contract id result with
    ⟨-, h⟩ | ⟨e, e', he, ⟨h, hs⟩ | ⟨h, hs⟩, ho⟩
  · exact .inl (by rw [h]; rfl)
  · exact .inr ⟨e, e', he, ho, .inl ⟨hs, by rw [h]; rfl⟩⟩
  · by_cases hbal : e.amount ≤ net.balance
    · exact .inr ⟨e, e', he, ho, .inr ⟨hs, hbal, by simp [h, answer, Net.transfer, hbal]⟩⟩
    · exact .inl (by simp [h, answer, Net.transfer, hbal])

/-- The execution of the last round is the only one, and its escrow is open. -/
lemma Rounds.taken (hR : Rounds w) {request : Request} {rest : List Message}
    (h : take w.net.pending i = some (.execution id (w.rounds id) request, rest)) :
    execs { w.net with pending := rest } id (w.rounds id) = 0 ∧
      ∀ e, w.contract.escrows id = some e → e.status.phase = .opened := by
  have hrest := execs_rest h id (w.rounds id)
  have hone := hR.once id
  rw [if_pos (by simp [Message.ofRound])] at hrest
  dsimp only
  exact ⟨by omega, fun e he => hR.live id e he (by omega)⟩

lemma not_late (he : ∀ e, w.contract.escrows id = some e → e.status.phase = .opened) :
    w.late id (w.rounds id) = false := by
  unfold World.late
  cases h : w.contract.escrows id with
  | none => rfl
  | some e =>
    have hphase := he e h
    cases hs : e.status <;> simp_all [EscrowStatus.phase]

/-- One callback of the last round. -/
lemma callback_inv (hI : Inv w) {round : ℕ} {request : Request} {rest : List Message}
    (htake : take w.net.pending i = some (.execution id round request, rest))
    (hcurrent : (w.contract.escrows id).isSome → round = w.rounds id)
    (result : Option (List UInt8)) :
    Inv (w.noting (answer w { w.net with pending := rest } id
      (onArbiterResult host.serde w.contract id result)) id round) := by
  have hdrop : Move w.book { w.book with net := { w.net with pending := rest } } :=
    .drop _ i _ rest htake (.inl trivial)
  have hdropped : Inv { w with net := { w.net with pending := rest } } :=
    { sound := hdrop.sound hI.sound
      records := hI.records
      rounds := hI.rounds.weaken rfl (execs_rest_le htake)
        fun j e he h => hI.rounds.live j e he (h.trans_le (execs_rest_le htake j _))
      untouched := hI.untouched }
  cases hnone : w.contract.escrows id with
  | none =>
    rcases answer_cases host.serde w { w.net with pending := rest } id result with
      h | ⟨e, -, he, -⟩
    · rw [h, World.noting, if_neg (by simp [World.late, hnone])]
      exact hdropped
    · rw [hnone] at he
      cases he
  | some e =>
    obtain rfl := hcurrent (by simp [hnone])
    obtain ⟨hzero, hopen⟩ := hI.rounds.taken htake
    have hphase := hopen e hnone
    rw [World.noting, if_neg (by simp [not_late hopen])]
    -- no execution of the last round is left, so the escrow may leave the open phase
    have hrounds : ∀ (e' : Escrow) (net : Net), (∀ j round, execs net j round =
        execs { w.net with pending := rest } j round) →
        Rounds { w with contract := w.contract.insert id e', net := net } := by
      intro e' net hexecs
      refine hdropped.rounds.weaken rfl (fun j round => (hexecs j round).le) fun j d hd h => ?_
      by_cases hj : j = id
      · subst hj
        have h0 := (hexecs j (w.rounds j)).trans hzero
        exact absurd h (by dsimp only; omega)
      · simp only [ArbiterEscrow.insert, Function.update_of_ne hj] at hd
        exact hdropped.rounds.live j d hd (h.trans_eq (hexecs j _))
    rcases answer_cases host.serde w { w.net with pending := rest } id result with
      h | ⟨e₀, e', he, ho, ⟨hs, h⟩ | ⟨hs, hbal, h⟩⟩
    · rw [h]
      exact hdropped
    · rw [h]
      obtain rfl := Option.some.inj (hnone.symm.trans he)
      refine ⟨?_, hI.records.insert he ho, hrounds e' _ fun _ _ => rfl, hI.untouched⟩
      rw [book_insert he (by rw [hs, hphase]; rfl)]
      exact hdropped.sound
    · rw [h]
      obtain rfl := Option.some.inj (hnone.symm.trans he)
      refine ⟨?_, hI.records.insert he ho, hrounds e' _ fun _ _ => rfl, hI.untouched⟩
      have hdeal := hI.deal_eq he
      have hpays := Move.pay { w.book with net := { w.net with pending := rest } } id
        ((book_phase he).trans (by rw [hphase])) (hdeal ▸ hbal)
      dsimp only at hpays
      rw [hdeal] at hpays
      rw [book_update, hs]
      exact hpays.sound hdropped.sound

/-! ### Steps -/

/-- A step that moves the book, keeps the records and starts no execution. -/
lemma Inv.of_moves (hI : Inv w) (hmoves : ReflTransGen Move w.book w'.book)
    (hrecords : Records Escrow.origin w'.contract.nextId w'.contract.escrows w'.opened)
    (hrounds : w'.rounds = w.rounds)
    (hexecs : ∀ id round, execs w'.net id round ≤ execs w.net id round)
    (hlive : ∀ id e, w'.contract.escrows id = some e → w.contract.escrows id = some e ∨
      e.status.phase = .opened ∨ execs w.net id (w.rounds id) = 0)
    (huntouched : w'.overwritten = w.overwritten) : Inv w' where
  sound := sound_of_moves hmoves hI.sound
  records := hrecords
  rounds := hI.rounds.weaken hrounds hexecs fun id e he h => by
    have hpos := h.trans_le (hexecs id _)
    rcases hlive id e he with hsame | hopen | hzero
    · exact hI.rounds.live id e hsame hpos
    · exact hopen
    · omega
  untouched := huntouched.trans hI.untouched

lemma resolve_rounds (hR : Rounds w) {request : Request} (hs : e'.status = .Resolving) :
    Rounds { w with
      contract := w.contract.insert id e'
      net := w.net.send (.execution id (w.rounds id + 1) request)
      rounds := Function.update w.rounds id (w.rounds id + 1) } := by
  have hexecs : ∀ j round, execs (w.net.send (.execution id (w.rounds id + 1) request)) j round =
      execs w.net j round + if id = j ∧ w.rounds id + 1 = round then 1 else 0 := by
    intro j round
    simp [execs, Net.send, List.countP_cons, Message.ofRound]
  have hfresh := hR.bound id (w.rounds id + 1) (Nat.lt_succ_self _)
  refine ⟨fun j round h => ?_, fun j => ?_, fun j d hd h => ?_⟩
  · dsimp only at h ⊢
    rw [hexecs]
    by_cases hj : j = id
    · subst hj
      rw [Function.update_self] at h
      rw [if_neg (by omega), hR.bound j round (by omega)]
    · rw [Function.update_of_ne hj] at h
      rw [if_neg (fun hid => hj hid.1.symm), hR.bound j round h]
  · dsimp only
    rw [hexecs]
    by_cases hj : j = id
    · subst hj
      rw [Function.update_self, if_pos ⟨rfl, rfl⟩, hfresh]
    · rw [Function.update_of_ne hj, if_neg fun hid => hj hid.1.symm]
      exact hR.once j
  · dsimp only [ArbiterEscrow.insert] at hd h
    by_cases hj : j = id
    · subst hj
      rw [Function.update_self, Option.some.injEq] at hd
      rw [← hd, hs]
      rfl
    · rw [Function.update_of_ne hj] at hd h
      rw [hexecs, if_neg fun hid => hj hid.1.symm] at h
      exact hR.live j d hd h

theorem step_inv {ev : Event} (hI : Inv w) (hcurrent : Current w ev)
    (h : step host w ev = .ok w') : Inv w' := by
  cases ev with
  | createEscrow env before after worker terms =>
    simp only [step, bind_ok_iff, pure_ok_iff] at h
    obtain ⟨⟨c, id⟩, hc, rfl⟩ := h
    obtain ⟨rfl, e, ho, hdeposit, hnext, hescrows⟩ := createEscrow_ok hc
    have hphase : e.status.phase = .opened := by rw [← ho]; rfl
    refine hI.of_moves (.single ?_) ?_ rfl (fun _ _ => le_rfl) (fun j d hd => ?_) rfl
    · convert Move.opens w.book e.deal using 1
      simp only [World.book, hnext, hescrows, Function.update_self, phases_update, deals_update,
        Option.map_some, hphase, Deal.total, Escrow.deal, hdeposit]
    · dsimp only
      rw [hnext, hescrows, Function.update_self]
      exact hI.records.create ho
    · dsimp only at hd
      rw [hescrows] at hd
      by_cases hj : j = w.contract.nextId
      · subst hj
        rw [Function.update_self, Option.some.injEq] at hd
        exact .inr (.inl (hd ▸ hphase))
      · rw [Function.update_of_ne hj] at hd
        exact .inl hd
  | resolve env id =>
    simp only [step, bind_ok_iff, pure_ok_iff] at h
    obtain ⟨⟨c, request⟩, hc, rfl⟩ := h
    obtain ⟨e, e', he, hs, rfl, hs', ho⟩ := resolve_ok hc
    have hsend := Move.send w.book (.execution id (w.rounds id + 1) request) trivial
    refine ⟨?_, hI.records.insert he ho, resolve_rounds hI.rounds hs', hI.untouched⟩
    have hphase : e'.status.phase = e.status.phase := by rw [hs, hs']; rfl
    have hbook := book_insert he hphase (w.net.send (.execution id (w.rounds id + 1) request))
    have hsound := hsend.sound hI.sound
    exact (hbook.symm ▸ hsound : Sound (World.book { w with
      contract := w.contract.insert id e'
      net := w.net.send (.execution id (w.rounds id + 1) request) }))
  | onArbiterResult i result =>
    simp only [step] at h
    split at h
    · rename_i id round request rest htake
      cases h
      rw [Current, htake] at hcurrent
      exact callback_inv hI htake hcurrent result
    · cases h
  | settle i ok =>
    simp only [step, bind_ok_iff, pure_ok_iff] at h
    obtain ⟨net, hnet, rfl⟩ := h
    exact hI.of_moves (.single (.settle _ i ok net hnet)) hI.records rfl
      (execs_settle_le (settle_ok hnet)) (fun _ _ he => .inl he) rfl
  | onPayout i =>
    simp only [step] at h
    split at h
    · rename_i id ok rest htake
      cases h
      cases ok with
      | true  =>
        exact hI.of_moves (.single (.drop _ i _ rest htake (.inl trivial))) hI.records rfl
          (execs_rest_le htake) (fun _ _ he => .inl he) rfl
      | false =>
        have hpaid := hI.sound.paid id (Sound.payouts_pos_of_bounce (mem_of_take htake))
        obtain ⟨e, he, hp⟩ := Option.map_eq_some_iff.mp hpaid
        have hzero : execs w.net id (w.rounds id) = 0 := by
          by_contra hne
          rw [hI.rounds.live id e he (Nat.pos_of_ne_zero hne)] at hp
          cases hp
        rw [onPayout_false he]
        refine hI.of_moves (.single ?_) (hI.records.insert he rfl) rfl (execs_rest_le htake)
          (fun j d hd => ?_) rfl
        · rw [book_update]
          exact .notice _ i id rest htake
        · by_cases hj : j = id
          · exact .inr (.inr (hj ▸ hzero))
          · simp only [ArbiterEscrow.insert, Function.update_of_ne hj] at hd
            exact .inl hd
    · cases h
  | lose i =>
    simp only [step, bind_ok_iff, pure_ok_iff] at h
    obtain ⟨net, hnet, rfl⟩ := h
    obtain ⟨m, rest, htake, hm, rfl⟩ := lose_ok hnet
    exact hI.of_moves (.single (.drop _ i m rest htake hm)) hI.records rfl (execs_rest_le htake)
      (fun _ _ he => .inl he) rfl
  | cancelExpired env id =>
    simp only [step, bind_ok_iff, pure_ok_iff] at h
    obtain ⟨⟨c, buyer, amount⟩, hc, net, hnet, rfl⟩ := h
    obtain ⟨e, he, hstatus, rfl, rfl, rfl⟩ := cancelExpired_ok hc
    obtain ⟨hbal, rfl⟩ := transfer_ok hnet
    have hdeal := hI.deal_eq he
    have hopen : w.book.phase id = some .opened ∨ w.book.phase id = some .bounced := by
      rw [book_phase he]
      rcases hstatus with hs | hs
      · rw [hs]
        exact .inr rfl
      · rw [hs]
        exact .inl rfl
    have hrefund := Move.refund w.book id hopen (hdeal ▸ hbal)
    rw [hdeal] at hrefund
    refine hI.of_moves (.single ?_) ?_ rfl (fun j round => ?_) (fun j d hd => ?_) rfl
    · rw [book_remove]
      exact hrefund
    · dsimp only
      rw [dropIndex_nextId, dropIndex_escrows]
      exact hI.records.remove id
    · simp [execs, Message.ofRound]
    · dsimp only at hd
      rw [dropIndex_escrows] at hd
      by_cases hj : j = id
      · simp [hj] at hd
      · dsimp only at hd
        rw [Function.update_of_ne hj] at hd
        exact .inl hd
  | resetStuck env id =>
    simp only [step, bind_ok_iff, pure_ok_iff] at h
    obtain ⟨c, hc, rfl⟩ := h
    obtain ⟨e, he, hs, rfl⟩ := resetStuck_ok hc
    refine hI.of_moves ?_ (hI.records.insert he rfl) rfl (fun _ _ => le_rfl) (fun j d hd => ?_) rfl
    · rw [book_insert he (by rw [hs]; rfl)]
      exact .refl
    · by_cases hj : j = id
      · subst hj
        simp only [ArbiterEscrow.insert, Function.update_self, Option.some.injEq] at hd
        exact .inr (.inl (by rw [← hd]; rfl))
      · simp only [ArbiterEscrow.insert, Function.update_of_ne hj] at hd
        exact .inl hd
  | receive amount =>
    cases h
    exact hI.of_moves (.single (.receive _ amount)) hI.records rfl (fun _ _ => le_rfl)
      (fun _ _ he => .inl he) rfl

/-! ### Runs -/

/-- Every escrow paid at most once, and no late callback changed an escrow. -/
def PaysOnce (w : World) : Prop :=
  (∀ id, w.net.outflows.filter (fun o => o.id = id) = [] ∨ ∃ e, w.opened id = some e ∧
    (w.net.outflows.filter (fun o => o.id = id) = [.payout id e.worker e.amount] ∨
      w.net.outflows.filter (fun o => o.id = id) =
        [.refund id e.buyer (e.amount + e.storageDeposit)])) ∧
  w.overwritten = []

lemma Inv.paysOnce (hI : Inv w) : PaysOnce w := by
  refine ⟨fun id => ?_, hI.untouched⟩
  rcases hI.sound.outflows_eq id with h | ⟨hlt, h⟩
  · exact .inl h
  · obtain ⟨e, he⟩ := hI.records.known id hlt
    have hdeal : w.book.deal id = e.deal := deals_of_some he
    rw [hdeal] at h
    exact .inr ⟨e, he, h⟩

/-- An escrow pays once in every run whose callbacks, where they find their escrow, are of its last
round. -/
theorem paysOnce_of_current (host : Host) (balance : ℕ) (events : List Event)
    (h : (machine host).Along Current (.init balance) events) :
    PaysOnce ((machine host).run (.init balance) events) := by
  have hI : Inv ((machine host).run (.init balance) events) :=
    Machine.run_induction_along (M := machine host) (fun _ _ _ hI hC hstep => step_inv hI hC hstep)
      events (inv_init balance) h
  exact hI.paysOnce

/-! ### A run with a late callback -/

def exampleTerms : String :=
  "\x7b\"context\":\"github_pr_v1\",\"repo\":\"a/b\",\"author\":\"c\",\"pr_number\":1," ++
    "\"deadline_unix\":1000\x7d"

def examplePass : List UInt8 :=
  "\x7b\"escrow_id\":0,\"rubric\":\"github_pr_v1\",\"verdict\":\"pass\"\x7d".toUTF8.toList

/-- A parser that knows these two texts. -/
def exampleHost : Host where
  serde :=
    { fromStr := fun s => if s = exampleTerms then
          some (.obj [("context", .str "github_pr_v1"), ("repo", .str "a/b"), ("author", .str "c"),
            ("pr_number", jsonU64 1), ("deadline_unix", jsonU64 1000)])
        else none
      fromSlice := fun b => if b = examplePass then
          some (.obj [("escrow_id", jsonU64 0), ("rubric", .str "github_pr_v1"),
            ("verdict", .str "pass")])
        else none }
  storageByteCost := 10 ^ 19

def exampleEnv (deposit height : ℕ) : Env where
  predecessor := "buyer"
  attachedDeposit := deposit
  prepaidGas := 300 * 10 ^ 12
  blockTimestamp := 100 * 10 ^ 9
  blockHeight := height

/-- An escrow is resolved, reset and resolved again; the second execution passes and pays. -/
def resolvedTwice : List Event := [
  .createEscrow (exampleEnv (millinear 20) 1) 0 200 "worker" exampleTerms,
  .resolve (exampleEnv (millinear 10) 2) 0,
  .resetStuck (exampleEnv 0 302) 0,
  .resolve (exampleEnv (millinear 10) 303) 0,
  .onArbiterResult 0 (some examplePass),
  .settle 0 true,
  .onPayout 0]

theorem paysOnce_of_current_resolvedTwice :
    PaysOnce ((machine exampleHost).run (.init (millinear 1000)) resolvedTwice) :=
  paysOnce_of_current exampleHost (millinear 1000) resolvedTwice (by decide +kernel)

/-- The first execution passes as well, and the worker is paid a second time. -/
theorem late_callback_pays_twice : ¬ PaysOnce ((machine exampleHost).run (.init (millinear 1000))
    (resolvedTwice ++ [.onArbiterResult 0 (some examplePass), .settle 0 true])) := by
  have hlen : (((machine exampleHost).run (.init (millinear 1000)) (resolvedTwice ++
      [.onArbiterResult 0 (some examplePass), .settle 0 true])).net.outflows.filter
        fun o => o.id = 0).length = 2 := by decide +kernel
  rintro ⟨honce, -⟩
  rcases honce 0 with h | ⟨e, -, h | h⟩ <;> rw [h] at hlen <;> cases hlen

end Suwappu.Near.ArbiterV2
