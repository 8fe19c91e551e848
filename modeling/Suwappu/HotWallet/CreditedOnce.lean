import Suwappu.HotWallet.DepositWatcher
import Suwappu.HotWallet.LostUpdates

/-!
# Deposits are credited once

No transfer is ever credited twice. `creditedOnce_of_kept`: where a pass sets the cursor only after
it has booked whatever it found, nothing at or before the cursor is missing.
-/

namespace Suwappu.HotWallet.DepositWatcher

open Checked

variable (W : World)

/-- A transfer of a token of the list to a watched address, and of the least amount. -/
def World.Due (chain : Chain) (log : Log) : Prop :=
  ∃ symbol ∈ W.tokens chain log.address, (∃ userId, W.byAddress log.toAddress = some userId) ∧
    (MIN_DEPOSIT symbol).value ≤ (W.amount chain symbol log.value).value

/-- The row of a transfer: of its owner, its token and its amount. -/
structure World.RowOf (chain : Chain) (log : Log) (row : CustodialTransaction) : Prop where
  key : row.idempotencyKey = depositKey chain log
  ofChain : row.balance.chain = chain
  owner : W.byAddress log.toAddress = some row.balance.userId
  token : W.tokens chain log.address = some row.balance.tokenSymbol
  amount : row.amount = W.amount chain row.balance.tokenSymbol log.value

def State.Credited (s : State) (chain : Chain) (log : Log) : Prop :=
  ∃ row ∈ s.ledger, W.RowOf chain log row

/-- The transfers after one block and up to another have been credited. -/
def State.Scanned (s : State) (chain : Chain) (start block : ℕ) : Prop :=
  ∀ log ∈ W.transfers chain, start < log.blockNumber → log.blockNumber ≤ block →
    W.Due chain log → s.Credited W chain log

/-- What the rows of a balance add up to. -/
def State.deposits (s : State) (key : BalanceKey) : ℚ :=
  ((s.ledger.filter fun row => row.balance = key).map fun row => row.amount.value).sum

/-- All transfers up to the cursor are booked, none is booked twice, and the balances are what was
booked and what other operations moved. -/
structure CreditedOnce (opening : BalanceKey → Decimal) (s : State) : Prop where
  complete : ∀ chain block, s.cursors chain = some block →
    ∃ start, s.since chain = some start ∧ s.Scanned W chain start block
  once : (s.ledger.map CustodialTransaction.idempotencyKey).Nodup
  balances : ∀ key, (s.balances key).value = (opening key).value + s.deposits key + s.moved key

/-- No digit of the amount is rounded away, nor of the new balance. -/
def State.Fits (s : State) (chain : Chain) (log : Log) : Prop :=
  ∀ symbol ∈ W.tokens chain log.address, ∀ userId ∈ W.byAddress log.toAddress,
    context.Fits (W.amount chain symbol log.value) ∧
      context.Fits ((s.balances ⟨userId, chain, symbol⟩).exactAdd (W.amount chain symbol log.value))

instance State.decidableFits (s : State) (chain : Chain) (log : Log) :
    Decidable (s.Fits W chain log) := by
  unfold State.Fits
  infer_instance

/-- The pass at work loses no log and no fraction of one: it sets the cursor only if it has missed
nothing, and books only what is not rounded. -/
def Pass.Keeps (s : State) (p : Pass) : Prop :=
  match p.stage with
  | .setCursor _           => p.missed = []
  | .handle _ (log :: _) _ => s.Fits W p.chain log
  | _                      => True

instance Pass.decidableKeeps (s : State) (p : Pass) : Decidable (p.Keeps W s) := by
  unfold Pass.Keeps
  split <;> infer_instance

def Kept (s : State) : Action → Prop
  | .take _ => ∀ p ∈ s.pass, p.Keeps W s
  | _       => True

instance decidableKept (s : State) : ∀ a, Decidable (Kept W s a)
  | .take _         => inferInstanceAs (Decidable (∀ p ∈ s.pass, p.Keeps W s))
  | .scan _         => .isTrue trivial
  | .crash          => .isTrue trivial
  | .mine _ _       => .isTrue trivial
  | .setBalance _ _ => .isTrue trivial

variable {W} {s s' : State} {opening : BalanceKey → Decimal} {chain : Chain} {log : Log}
  {row : CustodialTransaction} {p p' : Pass} {window : Window} {answer : Answer}

/-! ### Logs and rows -/

lemma mem_addresses {address : Address} {userId : UserId}
    (h : W.byAddress address = some userId) : address ∈ W.addresses := by
  obtain ⟨wallet, hfind, -⟩ := Option.map_eq_some_iff.mp h
  have hmem : wallet ∈ W.watched := List.mem_reverse.mp (List.mem_of_find?_eq_some hfind)
  have haddress : wallet.2 = address := by simpa using List.find?_some hfind
  exact List.mem_eraseDups.mpr (List.mem_map.mpr ⟨wallet, hmem, haddress⟩)

/-- What is handled has the row of its transfer, unless it is not due. -/
lemma handleLog_cases (hfits : s.Fits W chain log) :
    (∃ row, W.handleLog chain log = .ok (some row) ∧ W.RowOf chain log row) ∨
      W.handleLog chain log = .ok none ∧ ¬ W.Due chain log := by
  unfold World.handleLog
  split
  · rename_i symbol userId htoken howner
    obtain ⟨hamount, -⟩ := hfits symbol htoken userId howner
    rw [Decimal.Context.fix_of_fits hamount]
    by_cases hfloor : (W.amount chain symbol log.value).lt (MIN_DEPOSIT symbol) = true
    · refine .inr ⟨by simp [trap, hfloor, bind, Except.bind, pure, Except.pure], ?_⟩
      rintro ⟨symbol', htoken', -, hle⟩
      rw [Option.mem_def, htoken] at htoken'
      rw [← Option.some.inj htoken', ← Decimal.lt_eq_false_iff, hfloor] at hle
      cases hle
    · exact .inl ⟨⟨⟨userId, chain, symbol⟩, W.amount chain symbol log.value,
        depositKey chain log⟩, by simp [trap, hfloor, bind, Except.bind, pure, Except.pure],
        rfl, rfl, howner, htoken, rfl⟩
  · rename_i hnone
    refine .inr ⟨rfl, ?_⟩
    rintro ⟨symbol, htoken, ⟨userId, howner⟩, -⟩
    exact hnone _ _ htoken howner

/-- Two transfers with one key are one transfer. -/
lemma eq_of_depositKey {chain' : Chain} {log' : Log} (hlog : log ∈ W.transfers chain)
    (hlog' : log' ∈ W.transfers chain') (h : depositKey chain log = depositKey chain' log') :
    chain = chain' ∧ log = log' := by
  obtain ⟨rfl, hhash, hindex⟩ := DepositKey.mk.injEq .. ▸ h
  refine ⟨rfl, List.inj_on_of_nodup_map (W.distinct chain) hlog hlog' ?_⟩
  rw [Log.id, Log.id, hhash, hindex]

/-! ### The ledger -/

/-- What holds of the database at all times. -/
structure Sound (W : World) (opening : BalanceKey → Decimal) (s : State) : Prop
    extends CreditedOnce W opening s where
  rows : ∀ row ∈ s.ledger, ∃ chain, ∃ log ∈ W.transfers chain, W.RowOf chain log row
  fresh : ∀ chain, s.cursors chain = none → s.since chain = none

lemma Sound.credited_of_booked (h : Sound W opening s) (hlog : log ∈ W.transfers chain)
    (hrow : W.RowOf chain log row) (hbooked : s.Booked row) : s.Credited W chain log := by
  obtain ⟨r, hr, -, hkey⟩ := hbooked
  obtain ⟨chain', log', hlog', hrow'⟩ := h.rows r hr
  obtain ⟨rfl, rfl⟩ := eq_of_depositKey hlog hlog' (by rw [← hrow.key, ← hrow'.key, hkey])
  exact ⟨r, hr, hrow'⟩

/-- A key that is taken is taken by its user. -/
lemma Sound.booked_of_key (h : Sound W opening s) (hlog : log ∈ W.transfers chain)
    (hrow : W.RowOf chain log row)
    (hkey : row.idempotencyKey ∈ s.ledger.map CustodialTransaction.idempotencyKey) :
    s.Booked row := by
  obtain ⟨r, hr, hrkey⟩ := List.mem_map.mp hkey
  obtain ⟨chain', log', hlog', hrow'⟩ := h.rows r hr
  obtain ⟨rfl, rfl⟩ := eq_of_depositKey hlog hlog' (by rw [← hrow.key, ← hrow'.key, hrkey])
  refine ⟨r, hr, ?_, hrkey⟩
  exact Option.some.inj (hrow'.owner.symm.trans hrow.owner)

lemma Credited.mono (h : s.Credited W chain log) (hs : s.ledger ⊆ s'.ledger) :
    s'.Credited W chain log := by
  obtain ⟨row, hrow, hof⟩ := h
  exact ⟨row, hs hrow, hof⟩

lemma deposits_book (newBalance : Decimal) (key : BalanceKey) :
    (s.book row newBalance).deposits key =
      s.deposits key + if row.balance = key then row.amount.value else 0 := by
  unfold State.deposits State.book
  by_cases hkey : row.balance = key <;> simp [List.filter_append, hkey]

lemma Sound.book (h : Sound W opening s) (hlog : log ∈ W.transfers chain)
    (hrow : W.RowOf chain log row) (hnew : ¬ s.Booked row) {newBalance : Decimal}
    (hvalue : newBalance.value = (s.balances row.balance).value + row.amount.value) :
    Sound W opening (s.book row newBalance) where
  complete chain' block hblock := by
    obtain ⟨start, hstart, hscanned⟩ := h.complete chain' block hblock
    exact ⟨start, hstart, fun log' hlog' hlt hle hdue =>
      Credited.mono (hscanned log' hlog' hlt hle hdue) (List.subset_append_left _ _)⟩
  once := by
    rw [State.book, List.map_append, List.map_singleton]
    refine List.nodup_append.mpr ⟨h.once, List.nodup_singleton _, ?_⟩
    rintro key hkey _ hmem rfl
    rw [List.mem_singleton.mp hmem] at hkey
    exact hnew (h.booked_of_key hlog hrow hkey)
  balances key := by
    rw [deposits_book]
    by_cases hkey : row.balance = key
    · subst hkey
      rw [State.book]
      dsimp only
      rw [Function.update_self, hvalue, h.balances, if_pos rfl]
      ring
    · rw [if_neg hkey, add_zero, State.book]
      dsimp only
      rw [Function.update_of_ne (Ne.symm hkey)]
      exact h.balances key
  rows row' hmem := by
    rcases List.mem_append.mp hmem with hold | hlast
    · exact h.rows row' hold
    · rw [List.mem_singleton.mp hlast]
      exact ⟨chain, log, hlog, hrow⟩
  fresh := h.fresh

lemma cursors_credit : (s.credit row).cursors = s.cursors := by
  unfold State.credit
  split_ifs
  · rfl
  · split <;> rfl

lemma subset_credit : s.ledger ⊆ (s.credit row).ledger := by
  unfold State.credit
  split_ifs
  · exact List.Subset.refl _
  · split
    · exact List.Subset.refl _
    · exact List.subset_append_left _ _

/-- A credit that is not rolled back leaves the transfer booked. -/
lemma Sound.credit (h : Sound W opening s) (hlog : log ∈ W.transfers chain)
    (hrow : W.RowOf chain log row) (hfits : s.Fits W chain log) :
    Sound W opening (s.credit row) ∧ (s.credit row).Credited W chain log := by
  unfold State.credit
  split_ifs with hbooked
  · exact ⟨h, h.credited_of_booked hlog hrow hbooked⟩
  · obtain ⟨-, hadd⟩ := hfits _ hrow.token _ hrow.owner
    have hkey : (⟨row.balance.userId, chain, row.balance.tokenSymbol⟩ : BalanceKey) =
        row.balance := by rw [← hrow.ofChain]
    have happlied : applied .add (s.balances row.balance) row.amount =
        .ok ((s.balances row.balance).exactAdd row.amount) := by
      rw [hkey, ← hrow.amount] at hadd
      rw [applied, Decimal.Context.add, Decimal.Context.fix_of_fits hadd]
      rfl
    rw [happlied]
    exact ⟨h.book hlog hrow hbooked Decimal.value_exactAdd, row,
      List.mem_append_right _ (List.mem_singleton_self row), hrow⟩

/-- A pass that starts from the cursor and misses nothing may set it. -/
lemma Sound.setCursor (h : Sound W opening s)
    (hcursor : ∀ block ∈ s.cursors chain, block = window.cursor)
    (hscanned : s.Scanned W chain window.cursor window.toBlock) :
    Sound W opening (s.setCursor chain window) where
  complete chain' block hblock := by
    rw [State.setCursor] at hblock ⊢
    by_cases hchain : chain' = chain
    · subst hchain
      dsimp only at hblock ⊢
      rw [Function.update_self] at hblock ⊢
      cases hblock
      refine ⟨_, rfl, fun log hlog hlt hle hdue => ?_⟩
      by_cases hwindow : window.cursor < log.blockNumber
      · exact hscanned log hlog hwindow hle hdue
      · cases hold : s.cursors chain' with
        | none =>
          rw [h.fresh chain' hold] at hlt
          exact absurd hlt hwindow
        | some block =>
          obtain ⟨start, hstart, hbefore⟩ := h.complete chain' block hold
          rw [hstart] at hlt
          rw [hcursor block hold] at hbefore
          exact hbefore log hlog hlt (not_lt.mp hwindow) hdue
    · dsimp only at hblock ⊢
      rw [Function.update_of_ne hchain] at hblock ⊢
      exact h.complete chain' block hblock
  once := h.once
  balances := h.balances
  rows := h.rows
  fresh chain' hnone := by
    rw [State.setCursor] at hnone ⊢
    by_cases hchain : chain' = chain
    · subst hchain
      simp at hnone
    · dsimp only at hnone ⊢
      rw [Function.update_of_ne hchain] at hnone ⊢
      exact h.fresh chain' hnone

/-! ### Passes -/

/-- A pass has dealt with the logs of its window, but for those and the addresses that are left. -/
structure Pass.Sofar (W : World) (s : State) (p : Pass) (window : Window) (logs : List Log)
    (addresses : List Address) : Prop where
  cursor : ∀ block ∈ s.cursors p.chain, block = window.cursor
  transfers : ∀ log ∈ logs, log ∈ W.transfers p.chain
  done : p.missed = [] → ∀ log ∈ W.transfers p.chain, window.cursor < log.blockNumber →
    log.blockNumber ≤ window.toBlock → W.Due p.chain log → log ∉ logs →
      log.toAddress ∉ addresses → s.Credited W p.chain log

def Pass.Knows (W : World) (s : State) (p : Pass) : Prop :=
  match p.stage with
  | .getLogs window addresses     => p.Sofar W s window [] addresses
  | .handle window logs addresses => p.Sofar W s window logs addresses
  | .setCursor window             => p.Sofar W s window [] []
  | _                             => True

lemma Sofar.start (hcursor : ∀ block ∈ s.cursors p.chain, block = window.cursor) :
    p.Sofar W s window [] W.addresses where
  cursor := hcursor
  transfers := nofun
  done _ log _ _ _ hdue _ haddress := by
    obtain ⟨_, _, ⟨userId, howner⟩, _⟩ := hdue
    exact absurd (mem_addresses howner) haddress

lemma Sofar.getLogs {addresses : List Address} (h : p.Sofar W s window [] addresses) :
    p.Sofar W s window (W.getLogs p.chain window (addresses.take ADDRESS_CHUNK))
      (addresses.drop ADDRESS_CHUNK) where
  cursor := h.cursor
  transfers log hlog := List.mem_of_mem_filter hlog
  done hmissed log hlog hlt hle hdue hnot haddress := by
    refine h.done hmissed log hlog hlt hle hdue (List.not_mem_nil) fun hmem => ?_
    rw [← List.take_append_drop ADDRESS_CHUNK addresses, List.mem_append] at hmem
    refine hnot (List.mem_filter.mpr ⟨hlog, ?_⟩)
    exact decide_eq_true ⟨hlt, hle, hmem.resolve_right haddress⟩

/-- A log has been dealt with: it is not due, or booked, or missed. -/
lemma Sofar.next {logs : List Log} {addresses : List Address}
    (h : p.Sofar W s window (log :: logs) addresses) (hs : s.ledger ⊆ s'.ledger)
    (hcursors : s'.cursors = s.cursors) (hchain : p'.chain = p.chain)
    (hmissed : p'.missed = [] →
      p.missed = [] ∧ (W.Due p.chain log → s'.Credited W p.chain log)) :
    p'.Sofar W s' window logs addresses where
  cursor := by rw [hchain, hcursors]; exact h.cursor
  transfers := by
    rw [hchain]
    exact fun log' hlog' => h.transfers log' (List.mem_cons_of_mem _ hlog')
  done hnone log' hlog' hlt hle hdue hnot haddress := by
    rw [hchain] at hlog' hdue ⊢
    obtain ⟨hold, hcredited⟩ := hmissed hnone
    by_cases heq : log' = log
    · subst heq
      exact hcredited hdue
    · exact Credited.mono (h.done hold log' hlog' hlt hle hdue (by simp [heq, hnot]) haddress) hs

lemma of_after_missed {stage : Stage} (h : (p.after stage s s' row answer).missed = []) :
    p.missed = [] ∧ s'.Booked row := by
  by_cases hbooked : s'.Booked row
  · exact ⟨by simpa [Pass.after, hbooked] using h, hbooked⟩
  · simp [Pass.after, hbooked] at h

lemma Sofar.of_eq {logs : List Log} {addresses : List Address}
    (h : p.Sofar W s window logs addresses) (hledger : s'.ledger = s.ledger)
    (hcursors : s'.cursors = s.cursors) (hchain : p'.chain = p.chain)
    (hmissed : p'.missed = p.missed) : p'.Sofar W s' window logs addresses where
  cursor := by rw [hchain, hcursors]; exact h.cursor
  transfers := by rw [hchain]; exact h.transfers
  done hnone log hlog hlt hle hdue hnot haddress := by
    rw [hchain] at hlog hdue ⊢
    exact Credited.mono (h.done (hmissed ▸ hnone) log hlog hlt hle hdue hnot haddress)
      (hledger ▸ List.Subset.refl _)

/-- A step of a pass keeps the database sound, and the pass knows what it has done. -/
theorem Sound.advance (h : Sound W opening s) (hp : p.Knows W s) (hkeeps : p.Keeps W s)
    (hstep : DepositWatcher.advance W s p answer = .ok (s', p')) :
    Sound W opening s' ∧ p'.Knows W s' := by
  obtain ⟨chain, stage, credited, missed⟩ := p
  unfold DepositWatcher.advance at hstep
  cases stage with
  | wallets =>
    cases answer with
    | ok =>
      dsimp only at hstep
      split_ifs at hstep <;> (cases hstep; exact ⟨h, trivial⟩)
    | fails =>
      cases hstep
      exact ⟨h, trivial⟩
    | _ => cases hstep
  | blockNumber =>
    cases answer with
    | head block =>
      dsimp only at hstep
      split_ifs at hstep <;> (cases hstep; exact ⟨h, trivial⟩)
    | fails =>
      cases hstep
      exact ⟨h, trivial⟩
    | _ => cases hstep
  | cursor safeHead =>
    cases answer with
    | ok =>
      dsimp only at hstep
      split_ifs at hstep
      · cases hstep
        exact ⟨h, trivial⟩
      · cases hstep
        refine ⟨h, Sofar.start fun block hblock => ?_⟩
        rw [Option.mem_def.mp hblock]
        rfl
    | fails =>
      cases hstep
      exact ⟨h, trivial⟩
    | _ => cases hstep
  | getLogs window addresses =>
    cases answer with
    | ok =>
      cases hstep
      exact ⟨h, Sofar.of_eq (Sofar.getLogs hp) rfl rfl rfl rfl⟩
    | fails =>
      cases hstep
      exact ⟨h, trivial⟩
    | _ => cases hstep
  | handle window logs addresses =>
    cases logs with
    | nil =>
      cases addresses <;> cases answer <;> cases hstep <;>
        exact ⟨h, Sofar.of_eq hp rfl rfl rfl rfl⟩
    | cons log logs =>
      have hlog : log ∈ W.transfers chain := hp.transfers log List.mem_cons_self
      dsimp only at hstep
      rcases handleLog_cases (show s.Fits W chain log from hkeeps) with
        ⟨row, hrow, hof⟩ | ⟨hnone, hdue⟩
      · rw [hrow] at hstep
        cases answer with
        | head => cases hstep
        | fails =>
          cases hstep
          refine ⟨h, Sofar.next hp (List.Subset.refl _) rfl rfl fun hmissed => ?_⟩
          obtain ⟨hold, hbooked⟩ := of_after_missed hmissed
          exact ⟨hold, fun _ => h.credited_of_booked hlog hof hbooked⟩
        | _ =>
          cases hstep
          obtain ⟨hsound, hcredited⟩ := h.credit hlog hof hkeeps
          exact ⟨hsound, Sofar.next hp subset_credit cursors_credit rfl fun hmissed =>
            ⟨(of_after_missed hmissed).1, fun _ => hcredited⟩⟩
      · rw [hnone] at hstep
        cases answer <;> cases hstep <;>
          exact ⟨h, Sofar.next hp (List.Subset.refl _) rfl rfl fun hmissed =>
            ⟨hmissed, fun hd => absurd hd hdue⟩⟩
  | setCursor window =>
    have hset : Sound W opening (s.setCursor chain window) :=
      h.setCursor hp.cursor fun log hlog hlt hle hdue =>
        hp.done hkeeps log hlog hlt hle hdue List.not_mem_nil List.not_mem_nil
    cases answer with
    | ok =>
      cases hstep
      exact ⟨hset, trivial⟩
    | lost =>
      cases hstep
      exact ⟨hset, trivial⟩
    | fails =>
      cases hstep
      exact ⟨h, trivial⟩
    | _ => cases hstep
  | returned => cases hstep
  | raised => cases hstep

/-! ### Runs -/

lemma Sound.of_eq (h : Sound W opening s) (hcursors : s'.cursors = s.cursors)
    (hsince : s'.since = s.since) (hledger : s'.ledger = s.ledger)
    (hbalances : ∀ key, (s'.balances key).value - s'.moved key =
      (s.balances key).value - s.moved key) : Sound W opening s' where
  complete chain block hblock := by
    obtain ⟨start, hstart, hscanned⟩ := h.complete chain block (hcursors ▸ hblock)
    exact ⟨start, hsince ▸ hstart, fun log hlog hlt hle hdue =>
      Credited.mono (hscanned log hlog hlt hle hdue) (hledger ▸ List.Subset.refl _)⟩
  once := by rw [hledger]; exact h.once
  balances key := by
    have hkey := hbalances key
    have hold := h.balances key
    rw [State.deposits, hledger, ← State.deposits]
    linarith
  rows := by rw [hledger]; exact h.rows
  fresh := by rw [hcursors, hsince]; exact h.fresh

lemma Knows.of_eq (h : p.Knows W s) (hledger : s'.ledger = s.ledger)
    (hcursors : s'.cursors = s.cursors) : p.Knows W s' := by
  unfold Pass.Knows at h ⊢
  split at h
  · exact Sofar.of_eq h hledger hcursors rfl rfl
  · exact Sofar.of_eq h hledger hcursors rfl rfl
  · exact Sofar.of_eq h hledger hcursors rfl rfl
  · trivial

/-- The database is sound, and a pass that is at work knows what it has done. -/
def Holds (W : World) (opening : BalanceKey → Decimal) (s : State) : Prop :=
  Sound W opening s ∧ ∀ p ∈ s.pass, p.Knows W s

lemma Holds.step {a : Action} (h : Holds W opening s) (ha : Kept W s a)
    (hstep : (machine W).step s a = .ok s') : Holds W opening s' := by
  obtain ⟨hsound, hpass⟩ := h
  change DepositWatcher.step W s a = .ok s' at hstep
  unfold DepositWatcher.step at hstep
  cases a with
  | scan chain =>
    have hnew : Holds W opening { s with pass := some ⟨chain, .wallets, 0, []⟩ } := by
      refine ⟨hsound.of_eq rfl rfl rfl fun _ => rfl, fun p hp => ?_⟩
      cases hp
      trivial
    dsimp only at hstep
    split at hstep
    · cases hstep
      exact hnew
    · split_ifs at hstep
      cases hstep
      exact hnew
  | take answer =>
    dsimp only at hstep
    split at hstep
    · cases hstep
    · rename_i p hp
      cases hr : DepositWatcher.advance W s p answer with
      | error =>
        rw [hr] at hstep
        cases hstep
      | ok r =>
        rw [hr] at hstep
        cases hstep
        obtain ⟨hsound', hknows⟩ := hsound.advance (hpass p hp) (ha p hp) hr
        refine ⟨hsound'.of_eq rfl rfl rfl fun _ => rfl, fun p' hp' => ?_⟩
        cases hp'
        exact Knows.of_eq hknows rfl rfl
  | crash =>
    cases hstep
    exact ⟨hsound.of_eq rfl rfl rfl fun _ => rfl, nofun⟩
  | mine chain blocks =>
    cases hstep
    exact ⟨hsound.of_eq rfl rfl rfl fun _ => rfl, fun p hp => Knows.of_eq (hpass p hp) rfl rfl⟩
  | setBalance key balance =>
    cases hstep
    refine ⟨hsound.of_eq rfl rfl rfl fun key' => ?_, fun p hp => Knows.of_eq (hpass p hp) rfl rfl⟩
    dsimp only
    by_cases hkey : key' = key
    · subst hkey
      rw [Function.update_self, Function.update_self]
      ring
    · rw [Function.update_of_ne hkey, Function.update_of_ne hkey]

lemma holds_initial (head : Chain → ℕ) (cursors : Chain → Option ℕ) :
    Holds W opening (initial head cursors opening) := by
  refine ⟨⟨⟨fun chain block hblock => ⟨block, hblock, fun log _ hlt hle _ => ?_⟩,
    List.nodup_nil, fun key => ?_⟩, nofun, fun _ h => h⟩, nofun⟩
  · exact absurd (hlt.trans_le hle) (lt_irrefl block)
  · simp [initial, State.deposits]

/-- Where each pass that sets the cursor has booked whatever it found, and nothing is rounded, every
transfer up to the cursor has been added to its owner's balance, and none has been added twice. -/
theorem creditedOnce_of_kept (W : World) (head : Chain → ℕ) (cursors : Chain → Option ℕ)
    (opening : BalanceKey → Decimal) (acts : List Action)
    (h : (machine W).Along (Kept W) (initial head cursors opening) acts) :
    CreditedOnce W opening ((machine W).run (initial head cursors opening) acts) :=
  (Machine.run_induction_along (fun _ _ _ hs ha hstep => Holds.step hs ha hstep) acts
    (holds_initial head cursors) h).1.toCreditedOnce

/-- One deposit of five USDC in block 10 of one chain. -/
def oneDeposit : World where
  tokenAddress symbol _ := if symbol = .USDC then some 1000 else none
  tokenDecimals _ _ := 6
  watched := [(7, 55)]
  transfers chain := if chain = .base then [⟨1000, 55, 5000000, 1, 0, 10⟩] else []
  distinct chain := by cases chain <;> decide

/-- The watcher comes up with its cursor at block 5. -/
def fromBlock5 : State := initial (fun _ => 100) (fun _ => some 5) fun _ => .ofNat 0

/-- A pass up to the credit of the deposit. -/
def upToCredit : List Action :=
  [.scan .base, .take .ok, .take (.head 100), .take .ok, .take .ok]

theorem one_deposit_credited :
    CreditedOnce oneDeposit (fun _ => .ofNat 0) ((machine oneDeposit).run fromBlock5
      (upToCredit ++ [.take .fails, .crash] ++ upToCredit ++ [.take .ok, .take .ok, .take .ok])) :=
  creditedOnce_of_kept oneDeposit _ _ _ _ (by decide +kernel)

/-- The credit fails, and the cursor is set all the same. -/
theorem failed_credit_is_lost :
    ¬ ∀ (W : World) (head : Chain → ℕ) (cursors : Chain → Option ℕ) (opening : BalanceKey → Decimal)
      (acts : List Action), CreditedOnce W opening ((machine W).run (initial head cursors opening)
        acts) := by
  intro h
  obtain ⟨start, hstart, hscanned⟩ := (h oneDeposit (fun _ => 100) (fun _ => some 5)
    (fun _ => .ofNat 0) (upToCredit ++ [.take .fails, .take .ok, .take .ok])).complete .base 80
    (by decide +kernel)
  have h5 : some 5 = some start := by
    rw [← hstart]
    decide +kernel
  cases h5
  obtain ⟨row, hrow, -⟩ := hscanned ⟨1000, 55, 5000000, 1, 0, 10⟩ (by decide +kernel) (by decide)
    (by decide) ⟨.USDC, by decide +kernel, ⟨7, by decide +kernel⟩, by norm_num [Decimal.value,
      MIN_DEPOSIT, Decimal.ofNat, World.amount, oneDeposit]⟩
  have hnone : ((machine oneDeposit).run (initial (fun _ => 100) (fun _ => some 5)
      fun _ => .ofNat 0) (upToCredit ++ [.take .fails, .take .ok, .take .ok])).ledger = [] := by
    decide +kernel
  rw [hnone] at hrow
  cases hrow

end Suwappu.HotWallet.DepositWatcher
