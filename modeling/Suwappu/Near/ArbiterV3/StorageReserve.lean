import Suwappu.Near.ArbiterV3.PaysOnce

/-!
# The storage reserve

The buyer of an escrow is charged for its record and 384 bytes more, for what a resolution writes
into it later. The record outgrows the reserve when the arbiter's output is too long.
-/

namespace Suwappu.Near.ArbiterV3

open Checked InFlight

variable {host : Host} {serde : Serde} {c c' : ArbiterEscrow} {e e' : Escrow} {env : Env}
  {w w' : World} {id nonce i : ℕ} {result : Option (List UInt8)}

/-! ### The size of a record -/

def borshString (s : String) : ℕ := 4 + s.utf8ByteSize

def borshValue : Option String → ℕ
  | none   => 0
  | some s => borshString s

/-- A byte tells whether there is a value. -/
def borshOption (o : Option String) : ℕ := 1 + borshValue o

/-- The bytes of the Borsh encoding, field by field. -/
def Escrow.borshSize (e : Escrow) : ℕ :=
  8 + borshString e.buyer + borshString e.worker + 16 + 16 + 8 + 8 + borshString e.terms
    + borshString e.rubric + borshString e.arbiterWasmHash + 1 + borshOption e.lastVerdict
    + borshOption e.lastReason + borshOption e.evidenceHash + 8 + 8

/-- What resolutions have written into the record. -/
def Escrow.written (e : Escrow) : ℕ :=
  borshValue e.lastVerdict + borshValue e.lastReason + borshValue e.evidenceHash

lemma borshSize_origin (e : Escrow) : e.borshSize = e.origin.borshSize + e.written := by
  simp only [Escrow.borshSize, Escrow.origin, Escrow.written, borshOption, borshValue]
  omega

/-- What was written into the records stays within the reserve. -/
def ArbiterEscrow.Fits (c : ArbiterEscrow) : Prop :=
  ∀ id e, c.escrows id = some e → e.written ≤ 384

/-- No record is more than 384 bytes larger than it was created. -/
def Reserved (w : World) : Prop :=
  ∀ id e o, w.contract.escrows id = some e → w.opened id = some o → e.borshSize ≤ o.borshSize + 384

lemma reserved_iff (hR : Recorded serde w.contract w.opened) :
    Reserved w ↔ w.contract.Fits := by
  constructor
  · intro h id e he
    have hle := h id e e.origin he (hR.records.origin id e he)
    rw [borshSize_origin] at hle
    omega
  · intro h id e o he ho
    rw [hR.records.origin id e he, Option.some.injEq] at ho
    have hle := h id e he
    rw [← ho, borshSize_origin]
    omega

/-! ### What an output writes -/

/-- The bytes of a verdict, its reason and its evidence hash. -/
def verdictBytes (v : String × String × String) : ℕ :=
  v.1.utf8ByteSize + v.2.1.utf8ByteSize + v.2.2.utf8ByteSize

/-- The escrow awaits this result, and what it writes does not fit the reserve. -/
def Escrow.Overfilled (serde : Serde) (e : Escrow) (id nonce : ℕ) (result : Option (List UInt8)) :
    Bool :=
  e.status = .Resolving ∧ e.resolveNonce = nonce ∧
    372 < verdictBytes (readVerdict serde id e.rubric result)

def Overfills (host : Host) (w : World) : Event → Bool
  | .onArbiterResult i result =>
    match take w.net.pending i with
    | some (.execution id nonce _, _) =>
      (w.contract.escrows id).any fun e => e.Overfilled host.serde id nonce result
    | _ => false
  | _ => false

lemma onArbiterResult_written {payout : Option (String × ℕ)}
    (h : onArbiterResult serde c id nonce result = (c', payout)) :
    (c' = c ∧ ∀ e, c.escrows id = some e → e.Overfilled serde id nonce result = false)
      ∨ ∃ e e', c.escrows id = some e ∧ e.status = .Resolving ∧ e.resolveNonce = nonce ∧
        c' = c.insert id e' ∧
        e'.written = 12 + verdictBytes (readVerdict serde id e.rubric result) ∧
        ∀ worker amount, payout = some (worker, amount) → amount = e.amount := by
  unfold onArbiterResult at h
  split at h
  · rename_i hnone
    cases h
    exact .inl ⟨rfl, fun e he => by rw [hnone] at he; cases he⟩
  · rename_i e he
    split at h
    · rename_i hstale
      cases h
      refine .inl ⟨rfl, fun e₁ he₁ => ?_⟩
      obtain rfl : e = e₁ := Option.some.inj (he.symm.trans he₁)
      rw [Escrow.Overfilled, decide_eq_false_iff_not]
      rintro ⟨hs, hn, -⟩
      exact hstale.elim (fun hne => hne hs) fun hne => hne hn
    · rename_i hcurrent
      rw [not_or, not_not, not_not] at hcurrent
      dsimp only at h
      have hsize : ∀ v reason hash : String,
          borshValue (some v) + borshValue (some reason) + borshValue (some hash)
            = 12 + verdictBytes (v, reason, hash) := by
        intro v reason hash
        simp only [borshValue, borshString, verdictBytes]
        omega
      split at h
      · cases h
        refine .inr ⟨e, _, he, hcurrent.1, hcurrent.2, rfl, hsize _ _ _, ?_⟩
        rintro worker amount ⟨⟩
        rfl
      · cases h
        refine .inr ⟨e, _, he, hcurrent.1, hcurrent.2, rfl, hsize _ _ _, ?_⟩
        rintro worker amount ⟨⟩

/-- A payout that the balance covers goes ahead. -/
lemma startPayout_contract {net : Net} {payout : Option (String × ℕ)}
    (h : ∀ worker amount, payout = some (worker, amount) → amount ≤ net.balance) :
    (startPayout w c net id payout).contract = c := by
  cases payout with
  | none => rfl
  | some p =>
    obtain ⟨worker, amount⟩ := p
    rw [startPayout, Net.transfer, if_pos (h worker amount rfl)]

/-! ### Other steps -/

lemma insert_fits (h : c.Fits) (he : e'.written ≤ 384) : (c.insert id e').Fits := by
  intro j d hd
  by_cases hj : j = id
  · subst hj
    simp only [ArbiterEscrow.insert, Function.update_self, Option.some.injEq] at hd
    exact hd ▸ he
  · simp only [ArbiterEscrow.insert, Function.update_of_ne hj] at hd
    exact h j d hd

lemma createEscrow_fits {before after : ℕ} {worker terms : String}
    (hc : createEscrow host c env before after worker terms = .ok (c', id))
    (h : c.Fits) : c'.Fits := by
  obtain ⟨-, e, ho, -, -, hescrows, -⟩ := createEscrow_ok hc
  intro j d hd
  rw [hescrows] at hd
  by_cases hj : j = c.nextId
  · subst hj
    rw [Function.update_self, Option.some.injEq] at hd
    subst hd
    rw [← ho]
    exact Nat.zero_le _
  · rw [Function.update_of_ne hj] at hd
    exact h j d hd

lemma resolve_fits {m : Message} (hc : resolve host c env id = .ok (c', m))
    (h : c.Fits) : c'.Fits := by
  simp only [resolve, bind_ok_iff, guard_ok_iff, expect_ok_iff, pure_ok_iff, Prod.mk.injEq] at hc
  obtain ⟨-, -, -, -, e, he, -, -, r, -, -, -, t, -, input, -, rfl, -⟩ := hc
  exact insert_fits h (h id e he)

lemma onPayout_fits (ok : Bool) (h : c.Fits) : (onPayout c i ok).Fits := by
  cases ok with
  | true  => exact h
  | false =>
    rcases onPayout_false c i with ⟨heq, -⟩ | ⟨e, he, -, heq⟩
    · rw [heq]
      exact h
    · rw [heq]
      exact insert_fits h (h i e he)

lemma cancelExpired_fits {buyer : String} {amount : ℕ}
    (hc : cancelExpired serde c env id = .ok (c', buyer, amount))
    (h : c.Fits) : c'.Fits := by
  obtain ⟨e, -, -, -, rfl, -, -⟩ := cancelExpired_ok hc
  intro j d hd
  rw [dropIndex_escrows] at hd
  by_cases hj : j = id
  · subst hj
    simp at hd
  · dsimp only at hd
    rw [Function.update_of_ne hj] at hd
    exact h j d hd

lemma resetStuck_fits (hc : resetStuck c env id = .ok c')
    (h : c.Fits) : c'.Fits := by
  obtain ⟨e, he, -, rfl⟩ := resetStuck_ok hc
  exact insert_fits h (h id e he)

/-- No step but a result makes a record larger. -/
lemma step_fits {ev : Event} (hf : w.contract.Fits) (hother : ∀ i result,
    ev ≠ .onArbiterResult i result) (h : step host w ev = .ok w') : w'.contract.Fits := by
  cases ev with
  | createEscrow env before after worker terms =>
    simp only [step, bind_ok_iff, pure_ok_iff] at h
    obtain ⟨⟨c, id⟩, hc, rfl⟩ := h
    exact createEscrow_fits hc hf
  | resolve env id =>
    simp only [step, bind_ok_iff, pure_ok_iff] at h
    obtain ⟨⟨c, m⟩, hc, rfl⟩ := h
    exact resolve_fits hc hf
  | onArbiterResult i result => exact absurd rfl (hother i result)
  | settle i ok =>
    simp only [step, bind_ok_iff, pure_ok_iff] at h
    obtain ⟨net, -, rfl⟩ := h
    exact hf
  | onPayout i =>
    simp only [step] at h
    split at h
    · rename_i id ok rest htake
      cases h
      exact onPayout_fits ok hf
    · cases h
  | lose i =>
    simp only [step, bind_ok_iff, pure_ok_iff] at h
    obtain ⟨net, -, rfl⟩ := h
    exact hf
  | cancelExpired env id =>
    simp only [step, bind_ok_iff, pure_ok_iff] at h
    obtain ⟨⟨c, buyer, amount⟩, hc, net, -, rfl⟩ := h
    exact cancelExpired_fits hc hf
  | resetStuck env id =>
    simp only [step, bind_ok_iff, pure_ok_iff] at h
    obtain ⟨c, hc, rfl⟩ := h
    exact resetStuck_fits hc hf
  | receive amount =>
    cases h
    exact hf

/-! ### Runs -/

lemma due_le_balance (hI : Inv host.serde w) (he : w.contract.escrows id = some e)
    (hs : e.status = .Resolving) : e.amount ≤ w.net.balance := by
  have hcovered := due_covered hI {id}
  rw [Finset.sum_singleton, ArbiterEscrow.due, he] at hcovered
  simp only [hs, reduceCtorEq, if_false] at hcovered
  omega

/-- A result keeps the records within the reserve unless it overfills one. -/
lemma onArbiterResult_fits_iff (hI : Inv host.serde w) (hf : w.contract.Fits) (net : Net)
    (hnet : net.balance = w.net.balance) :
    (w.contract.escrows id).any (fun e => e.Overfilled host.serde id nonce result) = false ↔
      (startPayout w (onArbiterResult host.serde w.contract id nonce result).1 net id
        (onArbiterResult host.serde w.contract id nonce result).2).contract.Fits := by
  cases hc : onArbiterResult host.serde w.contract id nonce result with
  | mk c payout =>
    dsimp only
    rcases onArbiterResult_written hc with ⟨rfl, hnot⟩ | ⟨e, e', he, hs, hn, rfl, hwritten, hpay⟩
    · refine iff_of_true ?_ ?_
      · cases he : w.contract.escrows id with
        | none   => rfl
        | some e => exact hnot e he
      · rcases startPayout_cases w w.contract net id payout with ⟨hw, -⟩ | hw | ⟨_, _, -, -, hw⟩ <;>
          rw [hw] <;> exact hf
    · rw [startPayout_contract fun worker amount hsome =>
        (hpay worker amount hsome).trans_le (hnet ▸ due_le_balance hI he hs), he]
      simp only [Option.any_some, Escrow.Overfilled, hs, hn, true_and, decide_eq_false_iff_not,
        not_lt]
      constructor
      · intro hle
        exact insert_fits hf (by omega)
      · intro hfits
        have hle := hfits id e' (by simp only [ArbiterEscrow.insert, Function.update_self])
        omega

lemma overfills_of_ne {ev : Event} (hother : ∀ i result, ev ≠ .onArbiterResult i result) :
    Overfills host w ev = false := by
  cases ev with
  | onArbiterResult i result => exact absurd rfl (hother i result)
  | _ => rfl

/-- A step keeps the records within the reserve unless it overfills one. -/
lemma exec_fits_iff (hI : Inv host.serde w) (hf : w.contract.Fits) (ev : Event) :
    Overfills host w ev = false ↔ ((machine host).exec w ev).contract.Fits := by
  cases hstep : (machine host).step w ev with
  | error e =>
    rw [Machine.exec_error hstep]
    refine iff_of_true ?_ hf
    by_cases hresult : ∃ i result, ev = .onArbiterResult i result
    · obtain ⟨i, result, rfl⟩ := hresult
      simp only [machine, step] at hstep
      split at hstep
      · cases hstep
      · rename_i hother
        rw [Overfills]
        split
        · rename_i id nonce request rest htake
          exact absurd htake (hother id nonce request rest)
        · rfl
    · exact overfills_of_ne fun i result h => hresult ⟨i, result, h⟩
  | ok w' =>
    rw [Machine.exec_ok hstep]
    by_cases hresult : ∃ i result, ev = .onArbiterResult i result
    · obtain ⟨i, result, rfl⟩ := hresult
      simp only [machine, step] at hstep
      split at hstep
      · rename_i id nonce request rest htake
        cases hstep
        rw [Overfills, htake]
        exact onArbiterResult_fits_iff hI hf _ rfl
      · cases hstep
    · have hother : ∀ i result, ev ≠ .onArbiterResult i result :=
        fun i result h => hresult ⟨i, result, h⟩
      exact iff_of_true (overfills_of_ne hother) (step_fits hf hother hstep)

/-- In every state of a run no record has outgrown its reserve, if and only if no result along the
run overfills one. -/
theorem reserved_iff_no_overfill (host : Host) (balance : ℕ) (events : List Event) :
    (∀ pre, pre <+: events → Reserved ((machine host).run (.init balance) pre)) ↔
      (machine host).Along (fun w ev => Overfills host w ev = false) (.init balance) events := by
  have hreserved : ∀ pre, Reserved ((machine host).run (.init balance) pre) ↔
      ((machine host).run (.init balance) pre).contract.Fits :=
    fun pre => reserved_iff (run_inv host balance pre).recorded
  simp only [hreserved]
  refine (Machine.along_iff_forall_initial (M := machine host) (I := Inv host.serde)
    (G := fun w => w.contract.Fits) (fun w ev hI => ?_) (fun w ev hI hf => exec_fits_iff hI hf ev)
    events (inv_init balance) fun _ _ h => by cases h).symm
  exact Machine.exec_induction (M := machine host) (fun w' h => step_inv hI h) hI

/-- The first result of a run, where it overfills a record. -/
lemma not_reserved_of_overfills {balance : ℕ} (events : List Event) (ev : Event)
    (hothers : ∀ ev ∈ events, ∀ i result, ev ≠ .onArbiterResult i result)
    (hover : Overfills host ((machine host).run (.init balance) events) ev = true) :
    ¬ Reserved ((machine host).run (.init balance) (events ++ [ev])) := by
  intro h
  have hfits : ((machine host).run (.init balance) events).contract.Fits :=
    Machine.run_induction_along (M := machine host) (I := fun w => w.contract.Fits)
      (fun _ _ _ hf hother hstep => step_fits hf hother hstep) events
      (fun _ _ he => by cases he) (Machine.along_of_forall hothers)
  have hfits' := (reserved_iff (run_inv host balance _).recorded).mp h
  rw [Machine.run_append, Machine.run_cons, Machine.run_nil] at hfits'
  have hnone := (exec_fits_iff (run_inv host balance events) hfits ev).mpr hfits'
  rw [hover] at hnone
  cases hnone

/-! ### A long verdict -/

def knownTerms : String :=
  "\x7b\"context\":\"github_pr_v1\",\"repo\":\"a/b\",\"author\":\"c\",\"pr_number\":1," ++
    "\"deadline_unix\":1000\x7d"

/-- 400 characters of verdict. -/
def longVerdict : String := String.ofList (List.replicate 400 'x')

def longOutput : List UInt8 :=
  ("\x7b\"escrow_id\":0,\"rubric\":\"github_pr_v1\",\"verdict\":\"" ++ longVerdict
    ++ "\"\x7d").toUTF8.toList

/-- A parser that knows these two texts. -/
def knowingHost : Host where
  serde :=
    { fromStr := fun s => if s = knownTerms then
          some (.obj [("context", .str "github_pr_v1"), ("repo", .str "a/b"), ("author", .str "c"),
            ("pr_number", jsonU64 1), ("deadline_unix", jsonU64 1000)])
        else none
      fromSlice := fun b => if b = longOutput then
          some (.obj [("escrow_id", jsonU64 0), ("rubric", .str "github_pr_v1"),
            ("verdict", .str longVerdict)])
        else none }
  storageByteCost := 10 ^ 19

def buyerEnv (deposit height : ℕ) : Env where
  predecessor := "buyer"
  attachedDeposit := deposit
  prepaidGas := 300 * 10 ^ 12
  blockTimestamp := 100 * 10 ^ 9
  blockHeight := height

/-- An escrow is resolved with an output of half a kilobyte. -/
def resolvedAtLength : List Event := [
  .createEscrow (buyerEnv (millinear 20) 1) 0 200 "worker" knownTerms,
  .resolve (buyerEnv (millinear 10) 2) 0,
  .onArbiterResult 0 (some longOutput)]

lemma readVerdict_of_verdict {serde : Serde} {data : List UInt8} {verdict : String}
    (hlength : data.length ≤ 16 * 1024)
    (hslice : serde.fromSlice data = some (.obj [("escrow_id", jsonU64 0),
      ("rubric", .str "github_pr_v1"), ("verdict", .str verdict)])) :
    readVerdict serde 0 "github_pr_v1" (some data) = (verdict, "", "") := by
  have hresult : promiseResult (some data) (16 * 1024) = some data := by
    rw [promiseResult, Option.filter_some, if_pos (decide_eq_true hlength)]
  unfold readVerdict
  rw [hresult, Option.bind_some, hslice]
  rfl

/-- The first execution of the first escrow. -/
def isFirst : Message → Bool
  | .execution id nonce _ => decide (id = 0 ∧ nonce = 1)
  | _                     => false

lemma longOutput_overfills : Overfills knowingHost
    ((machine knowingHost).run (.init (millinear 1000)) (resolvedAtLength.take 2))
    (.onArbiterResult 0 (some longOutput)) = true := by
  have hpending : ((take ((machine knowingHost).run (.init (millinear 1000))
      (resolvedAtLength.take 2)).net.pending 0).any fun p => isFirst p.1) = true := by
    decide +kernel
  have hescrow : (((machine knowingHost).run (.init (millinear 1000))
      (resolvedAtLength.take 2)).contract.escrows 0).any (fun e =>
        e.status = .Resolving ∧ e.resolveNonce = 1 ∧ e.rubric = "github_pr_v1") = true := by
    decide +kernel
  -- the run is not looked at again
  generalize (machine knowingHost).run (.init (millinear 1000)) (resolvedAtLength.take 2) = w at *
  obtain ⟨⟨message, rest⟩, htake, hmessage⟩ := (Option.any_eq_true _ _).mp hpending
  obtain ⟨e, he, hawaits⟩ := (Option.any_eq_true _ _).mp hescrow
  obtain ⟨hstatus, hnonce, hrubric⟩ := of_decide_eq_true hawaits
  cases message with
  | execution id nonce request =>
    obtain ⟨rfl, rfl⟩ := of_decide_eq_true hmessage
    have hverdict : readVerdict knowingHost.serde 0 e.rubric (some longOutput)
        = (longVerdict, "", "") := by
      rw [hrubric]
      exact readVerdict_of_verdict (by decide +kernel) (if_pos rfl)
    rw [Overfills, htake]
    dsimp only
    rw [he, Option.any_some, Escrow.Overfilled, hverdict]
    exact decide_eq_true ⟨hstatus, hnonce, by decide +kernel⟩
  | _ => cases hmessage

/-- The record grows by 412 bytes. -/
theorem long_verdict_overfills :
    ¬ Reserved ((machine knowingHost).run (.init (millinear 1000)) resolvedAtLength) :=
  not_reserved_of_overfills (resolvedAtLength.take 2) (.onArbiterResult 0 (some longOutput))
    (by simp [resolvedAtLength]) longOutput_overfills

end Suwappu.Near.ArbiterV3
