import Suwappu.Near.Net

/-!
# The book of escrows

What an escrow account is for, without terms, verdicts and deadlines: an escrow is open, its worker
has been sent the money, that transfer bounced, or it is gone with a refund. `Move` lists what may
happen to the book. The contracts refine it.
-/

namespace Suwappu.Near

open InFlight

/-- What has become of an escrow. -/
inductive Phase where
  | opened | paid | bounced
deriving DecidableEq

def EscrowStatus.phase : EscrowStatus → Phase
  | .Created      => .opened
  | .Resolving    => .opened
  | .Paid         => .paid
  | .PayoutFailed => .bounced

/-- What buyer and worker agreed on. -/
structure Deal where
  buyer : String
  worker : String
  amount : ℕ
  storage : ℕ

/-- What goes back to the buyer. -/
def Deal.total (d : Deal) : ℕ := d.amount + d.storage

structure Book where
  nextId : ℕ
  phase : ℕ → Option Phase
  deal : ℕ → Deal
  net : Net

/-! ### Counting -/

/-- A transfer to the worker of escrow `id`, or the news that it bounced. -/
def Message.paysOut (id : ℕ) : Message → Bool
  | .payout i _ _         => i = id
  | .payoutResult i false => i = id
  | _                     => false

def Message.bounces (id : ℕ) : Message → Bool
  | .payoutResult i false => i = id
  | _                     => false

def Message.refunds (id : ℕ) : Message → Bool
  | .refund i _ _ => i = id
  | _             => false

def Outflow.paysOut (id : ℕ) : Outflow → Bool
  | .payout i _ _ => i = id
  | _             => false

def Outflow.refunds (id : ℕ) : Outflow → Bool
  | .refund i _ _ => i = id
  | _             => false

/-- The transfers to the worker that are under way, unnoticed failures, or done. -/
def Net.payouts (net : Net) (id : ℕ) : ℕ :=
  net.pending.countP (Message.paysOut id) + net.outflows.countP (Outflow.paysOut id)

/-- The transfers back to the buyer that are under way or done. -/
def Net.refunds (net : Net) (id : ℕ) : ℕ :=
  net.pending.countP (Message.refunds id) + net.outflows.countP (Outflow.refunds id)

/-- The failed transfers to the worker that the contract has not noticed. -/
def Net.unnoticed (net : Net) (id : ℕ) : ℕ := net.pending.countP (Message.bounces id)

attribute [simp] Message.paysOut Message.bounces Message.refunds Outflow.paysOut Outflow.refunds

/-! ### Messages without money -/

/-- A message other than a transfer or the news that one failed. -/
def Message.Idle : Message → Prop
  | .execution _ _ _     => True
  | .payoutResult _ true => True
  | _                    => False

/-- Only a callback is lost. -/
lemma lose_ok {net net' : Net} {i : ℕ} (h : net.lose i = .ok net') :
    ∃ m rest, take net.pending i = some (m, rest) ∧
      (m.Idle ∨ ∃ id, m = .payoutResult id false) ∧ net' = { net with pending := rest } := by
  unfold Net.lose at h
  split at h
  · rename_i htake
    cases h
    exact ⟨_, _, htake, .inl trivial, rfl⟩
  · rename_i id ok rest htake
    cases h
    refine ⟨_, _, htake, ?_, rfl⟩
    cases ok with
    | false => exact .inr ⟨id, rfl⟩
    | true  => exact .inl trivial
  · cases h

/-! ### Transfers that end -/

/-- What became of transfer `i`. -/
inductive Settled (net : Net) (i : ℕ) : Net → Prop
  | paid {id : ℕ} {worker : String} {amount : ℕ} {rest : List Message}
      (h : take net.pending i = some (.payout id worker amount, rest)) :
      Settled net i { net with
        pending := .payoutResult id true :: rest
        outflows := .payout id worker amount :: net.outflows }
  | bounced {id : ℕ} {worker : String} {amount : ℕ} {rest : List Message}
      (h : take net.pending i = some (.payout id worker amount, rest)) :
      Settled net i { net with
        balance := net.balance + amount
        pending := .payoutResult id false :: rest
        failedPayouts := id :: net.failedPayouts }
  | refunded {id : ℕ} {buyer : String} {amount : ℕ} {rest : List Message}
      (h : take net.pending i = some (.refund id buyer amount, rest)) :
      Settled net i { net with
        pending := rest
        outflows := .refund id buyer amount :: net.outflows }
  | kept {id : ℕ} {buyer : String} {amount : ℕ} {rest : List Message}
      (h : take net.pending i = some (.refund id buyer amount, rest)) :
      Settled net i { net with
        balance := net.balance + amount
        pending := rest }

lemma settle_ok {net net' : Net} {i : ℕ} {ok : Bool} (h : net.settle i ok = .ok net') :
    Settled net i net' := by
  unfold Net.settle at h
  split at h
  · rename_i htake
    cases h
    exact .paid htake
  · rename_i htake
    cases h
    exact .bounced htake
  · rename_i htake
    cases h
    exact .refunded htake
  · rename_i htake
    cases h
    exact .kept htake
  · cases h

/-- A transfer that ends leaves at most the news of a payout. -/
lemma Settled.pending {net net' : Net} {i : ℕ} (h : Settled net i net') :
    ∃ m rest, take net.pending i = some (m, rest) ∧
      (net'.pending = rest ∨ ∃ id ok, net'.pending = .payoutResult id ok :: rest) := by
  cases h with
  | paid h => exact ⟨_, _, h, .inr ⟨_, true, rfl⟩⟩
  | bounced h => exact ⟨_, _, h, .inr ⟨_, false, rfl⟩⟩
  | refunded h => exact ⟨_, _, h, .inl rfl⟩
  | kept h => exact ⟨_, _, h, .inl rfl⟩

/-! ### Refunds are started by moves of their own -/

lemma refunds_rest_le {net : Net} {i : ℕ} {m : Message} {rest : List Message}
    (h : take net.pending i = some (m, rest)) (id : ℕ) :
    Net.refunds { net with pending := rest } id ≤ net.refunds id := by
  have hcount := countP_take (p := Message.refunds id) h
  simp only [Net.refunds]
  omega

lemma refunds_send {m : Message} (hm : m.Idle) (net : Net) (id : ℕ) :
    (net.send m).refunds id = net.refunds id := by
  cases m <;> simp_all [Message.Idle, Net.send, Net.refunds]

lemma Settled.refunds_le {net net' : Net} {i : ℕ} (h : Settled net i net') (id : ℕ) :
    net'.refunds id ≤ net.refunds id := by
  cases h with
  | paid h => simpa [Net.refunds] using refunds_rest_le h id
  | bounced h => simpa [Net.refunds] using refunds_rest_le h id
  | refunded h =>
    have hcount := countP_take (p := Message.refunds id) h
    simp [Net.refunds, List.countP_cons] at hcount ⊢
    omega
  | kept h => exact refunds_rest_le h id

/-! ### The moves of the book -/

inductive Move : Book → Book → Prop
  | receive (b : Book) (n : ℕ) : Move b { b with net := b.net.receive n }
  | opens (b : Book) (d : Deal) :
      Move b { nextId := b.nextId + 1
               phase := Function.update b.phase b.nextId (some .opened)
               deal := Function.update b.deal b.nextId d
               net := b.net.receive d.total }
  | send (b : Book) (m : Message) (hm : m.Idle) : Move b { b with net := b.net.send m }
  | drop (b : Book) (i : ℕ) (m : Message) (rest : List Message)
      (h : take b.net.pending i = some (m, rest)) (hm : m.Idle ∨ ∃ id, m = .payoutResult id false) :
      Move b { b with net := { b.net with pending := rest } }
  | pay (b : Book) (id : ℕ) (h : b.phase id = some .opened)
      (hbal : (b.deal id).amount ≤ b.net.balance) :
      Move b { b with
        phase := Function.update b.phase id (some .paid)
        net := { b.net with
          balance := b.net.balance - (b.deal id).amount
          pending := .payout id (b.deal id).worker (b.deal id).amount :: b.net.pending } }
  | settle (b : Book) (i : ℕ) (ok : Bool) (net : Net) (h : b.net.settle i ok = .ok net) :
      Move b { b with net := net }
  | notice (b : Book) (i id : ℕ) (rest : List Message)
      (h : take b.net.pending i = some (.payoutResult id false, rest)) :
      Move b { b with
        phase := Function.update b.phase id (some .bounced)
        net := { b.net with pending := rest } }
  | refund (b : Book) (id : ℕ) (h : b.phase id = some .opened ∨ b.phase id = some .bounced)
      (hbal : (b.deal id).total ≤ b.net.balance) :
      Move b { b with
        phase := Function.update b.phase id none
        net := { b.net with
          balance := b.net.balance - (b.deal id).total
          pending := .refund id (b.deal id).buyer (b.deal id).total :: b.net.pending } }

end Suwappu.Near
