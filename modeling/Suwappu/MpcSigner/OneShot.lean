import Suwappu.MpcSigner.ExecutionLedger

/-!
# Executions are reserved once

`reserved_once`: no two calls are given a reservation of one execution, whichever calls fail,
whatever processes are killed and wherever the power is lost, as long as the directory is kept.
`replay_requested`: and what is refused as a replay has been requested before.
-/

namespace Suwappu.MpcSigner.ExecutionLedger

open Checked

variable {sha512 : Sha512} {s s' : State} {r r' : Request} {e e' : Entry} {n n' : Bytes}
  {op : Op} {ops : List Op} {slot : ℕ} {files : Bytes → Option Entry}

/-! ### Operations -/

/-- An operation, on the file of its call. -/
def Op.apply : Op → Entry → Entry
  | .writeAll bytes, e => e.write bytes
  | .syncAll, e        => e.sync
  | .fsyncDir, e       => e.link

/-- What the operations still write. -/
def written (ops : List Op) : Bytes :=
  ops.flatMap fun
    | .writeAll bytes => bytes
    | _               => []

lemma perform_self (h : s.files n = some e) :
    (s.perform n op).files n = some (op.apply e) := by
  cases op with
  | writeAll | syncAll =>
    change Function.update s.files n _ n = _
    rw [Function.update_self, h]
    rfl
  | fsyncDir =>
    change (s.files n).map Entry.link = _
    rw [h]
    rfl

lemma perform_other (op : Op) (hne : n' ≠ n) (h : s.files n' = some e) :
    (s.perform n op).files n' = some e ∨ (s.perform n op).files n' = some e.link := by
  cases op with
  | writeAll | syncAll =>
    left
    change Function.update s.files n _ n' = _
    rw [Function.update_of_ne hne, h]
  | fsyncDir =>
    right
    change (s.files n').map Entry.link = _
    rw [h]
    rfl

lemma perform_none (h : (s.perform n op).files n' ≠ none) : s.files n' ≠ none := by
  intro hnone
  apply h
  cases op with
  | writeAll | syncAll =>
    change Function.update s.files n _ n' = none
    by_cases hn : n' = n
    · subst hn
      rw [Function.update_self, hnone]
      rfl
    · rw [Function.update_of_ne hn, hnone]
  | fsyncDir =>
    change (s.files n').map Entry.link = none
    rw [hnone]
    rfl

/-! ### Tombstones -/

/-- Both identifiers pass their checks. -/
def Valid (r : Request) : Prop :=
  validateIdentifier r.keyId = .ok () ∧ validateIdentifier r.executionId = .ok ()

/-- A complete record, on the disk with its entry. -/
structure Kept (r : Request) (e : Entry) : Prop where
  valid : Valid r
  record : r.record <+: e.contents
  synced : r.record.length ≤ e.synced
  linked : e.linked = true

lemma Kept.apply (h : Kept r e) (op : Op) : Kept r (op.apply e) := by
  cases op with
  | writeAll bytes => exact ⟨h.valid, h.record.trans (List.prefix_append _ _), h.synced, h.linked⟩
  | syncAll        => exact ⟨h.valid, h.record, h.record.length_le, h.linked⟩
  | fsyncDir       => exact ⟨h.valid, h.record, h.synced, rfl⟩

lemma Kept.cut (h : Kept r e) (kept : ℕ) : Kept r (e.cut kept) := by
  have hrecord : r.record <+: e.contents.take (e.synced + kept) :=
    List.prefix_take_iff.mpr ⟨h.record, h.synced.trans (Nat.le_add_right _ _)⟩
  exact ⟨h.valid, hrecord, hrecord.length_le, rfl⟩

/-- A call of `reserve` under way: what it has written and will write is the record, which it then
syncs. -/
structure Progress (r : Request) (ops : List Op) (e : Entry) : Prop where
  valid : Valid r
  ordered : ops.Pairwise fun a b => a = .syncAll → ∀ bytes, b ≠ .writeAll bytes
  contents : e.contents ++ written ops = r.record
  synced : .syncAll ∉ ops → r.record.length ≤ e.synced
  linked : .fsyncDir ∉ ops → e.linked = true

lemma progress_start (h : Valid r) : Progress r r.ops ⟨[], 0, false⟩ where
  valid := h
  ordered := by simp [Request.ops]
  contents := by simp [Request.ops, written, Request.record]
  synced h := absurd (by simp [Request.ops]) h
  linked h := absurd (by simp [Request.ops]) h

lemma written_of_synced (h : ∀ b ∈ ops, ∀ bytes, b ≠ .writeAll bytes) : written ops = [] := by
  rw [written, List.flatMap_eq_nil_iff]
  intro b hb
  cases b with
  | writeAll bytes    => exact absurd rfl (h _ hb bytes)
  | syncAll | fsyncDir => rfl

lemma Progress.next (h : Progress r (op :: ops) e) : Progress r ops (op.apply e) := by
  obtain ⟨hfirst, hordered⟩ := List.pairwise_cons.mp h.ordered
  have hcontents := h.contents
  cases op with
  | writeAll bytes =>
    refine ⟨h.valid, hordered, ?_, fun hsync => h.synced ?_, fun hdir => h.linked ?_⟩
    · change e.contents ++ bytes ++ written ops = r.record
      rw [List.append_assoc]
      exact hcontents
    · exact List.not_mem_cons_of_ne_of_not_mem (by simp) hsync
    · exact List.not_mem_cons_of_ne_of_not_mem (by simp) hdir
  | syncAll =>
    have hnone : written ops = [] := written_of_synced fun b hb => hfirst b hb rfl
    refine ⟨h.valid, hordered, hcontents, fun _ => ?_, fun hdir => h.linked ?_⟩
    · rw [← hcontents]
      change (e.contents ++ ([] ++ written ops)).length ≤ e.contents.length
      rw [hnone, List.append_nil, List.append_nil]
    · exact List.not_mem_cons_of_ne_of_not_mem (by simp) hdir
  | fsyncDir =>
    refine ⟨h.valid, hordered, hcontents, fun hsync => h.synced ?_, fun _ => rfl⟩
    exact List.not_mem_cons_of_ne_of_not_mem (by simp) hsync

lemma Progress.link (h : Progress r ops e) : Progress r ops e.link :=
  ⟨h.valid, h.ordered, h.contents, h.synced, fun _ => rfl⟩

lemma Progress.kept (h : Progress r [] e) : Kept r e := by
  have hcontents : e.contents = r.record := by simpa [written] using h.contents
  exact ⟨h.valid, hcontents ▸ List.prefix_rfl, h.synced List.not_mem_nil,
    h.linked List.not_mem_nil⟩

/-! ### The invariant -/

/-- Calls of `reserve` have files of their own, which become tombstones. -/
structure Sound (sha512 : Sha512) (s : State) : Prop where
  rootless : s.root = none → ∀ name, s.files name = none
  file : ∀ slot task, s.tasks slot = some task → s.files task.name ≠ none
  progress : ∀ slot task r, s.tasks slot = some task → task.request = some r →
    task.name = r.name sha512 ∧ ∀ e, s.files task.name = some e → Progress r task.ops e
  apart : ∀ slot slot' task task', s.tasks slot = some task → s.tasks slot' = some task' →
    task.request ≠ none → task'.name = task.name → slot' = slot
  kept : ∀ r ∈ s.reserved, ∃ e, s.files (r.name sha512) = some e ∧ Kept r e
  fresh : ∀ slot task, s.tasks slot = some task → task.request ≠ none →
    ∀ r ∈ s.reserved, r.name sha512 ≠ task.name
  nodup : (s.reserved.map (Request.name sha512)).Nodup

/-- Where no call is under way, only the tombstones count. -/
lemma sound_idle (hroot : s.root = none → ∀ n, s.files n = none)
    (htasks : ∀ slot, s.tasks slot = none)
    (hkept : ∀ r ∈ s.reserved, ∃ e, s.files (r.name sha512) = some e ∧ Kept r e)
    (hnodup : (s.reserved.map (Request.name sha512)).Nodup) : Sound sha512 s := by
  have hidle {slot : ℕ} {task : Task} (h : s.tasks slot = some task) : False :=
    Option.some_ne_none task (h.symm.trans (htasks slot))
  exact ⟨hroot, fun _ _ h => (hidle h).elim, fun _ _ _ h => (hidle h).elim,
    fun _ _ _ _ h => (hidle h).elim, hkept, fun _ _ h => (hidle h).elim, hnodup⟩

lemma sound_init : Sound sha512 .init :=
  sound_idle (fun _ _ => rfl) (fun _ => rfl) (fun _ h => absurd h List.not_mem_nil) List.nodup_nil

lemma Sound.with_root (h : Sound sha512 s) (kept : Bool) :
    Sound sha512 { s with root := some kept } :=
  ⟨fun hnone => (Option.some_ne_none kept hnone).elim, h.file, h.progress, h.apart, h.kept,
    h.fresh, h.nodup⟩

/-- A slot that has been set. -/
lemma setTask_cases {task task' : Option Task} {slot' : ℕ}
    (h : (s.setTask slot task).tasks slot' = task') :
    slot' = slot ∧ task' = task ∨ slot' ≠ slot ∧ s.tasks slot' = task' := by
  change Function.update s.tasks slot task slot' = task' at h
  by_cases hslot : slot' = slot
  · subst hslot
    rw [Function.update_self] at h
    exact .inl ⟨rfl, h.symm⟩
  · rw [Function.update_of_ne hslot] at h
    exact .inr ⟨hslot, h⟩

/-- Ending a call that returns nothing. -/
lemma Sound.drop (h : Sound sha512 s) (slot : ℕ) : Sound sha512 (s.setTask slot none) := by
  have hold {slot' : ℕ} {task : Task} (htask : (s.setTask slot none).tasks slot' = some task) :
      s.tasks slot' = some task := by
    rcases setTask_cases htask with ⟨-, hnone⟩ | ⟨-, hsome⟩
    · cases hnone
    · exact hsome
  exact ⟨h.rootless, fun _ _ ht => h.file _ _ (hold ht), fun _ _ _ ht => h.progress _ _ _ (hold ht),
    fun _ _ _ _ ht ht' => h.apart _ _ _ _ (hold ht) (hold ht'), h.kept,
    fun _ _ ht => h.fresh _ _ (hold ht), h.nodup⟩

lemma Kept.performed (h : s.files n = some e ∧ Kept r e) (n' : Bytes) (op : Op) :
    ∃ e', (s.perform n' op).files n = some e' ∧ Kept r e' := by
  by_cases hn : n = n'
  · subst hn
    exact ⟨op.apply e, perform_self h.1, h.2.apply op⟩
  · rcases perform_other op hn h.1 with hsame | hlink
    · exact ⟨e, hsame, h.2⟩
    · exact ⟨e.link, hlink, h.2.apply .fsyncDir⟩

/-- An operation of one call, which then goes on or ends. -/
lemma Sound.operate (h : Sound sha512 s) {task : Task} (htask : s.tasks slot = some task) (op : Op)
    (next : Option Task)
    (hnext : ∀ task', next = some task' → task'.name = task.name ∧ task'.request = task.request ∧
      ∀ r e, task.request = some r → s.files task.name = some e →
        Progress r task'.ops (op.apply e)) :
    Sound sha512 ((s.perform task.name op).setTask slot next) := by
  obtain ⟨e, he⟩ := Option.ne_none_iff_exists'.mp (h.file slot task htask)
  have hself : (s.perform task.name op).files task.name = some (op.apply e) := perform_self he
  have hold {slot' : ℕ} {task' : Task}
      (htask' : ((s.perform task.name op).setTask slot next).tasks slot' = some task') :
      ∃ before, s.tasks slot' = some before ∧ task'.name = before.name ∧
        task'.request = before.request := by
    rcases setTask_cases htask' with ⟨rfl, hsome⟩ | ⟨-, hsome⟩
    · exact ⟨task, htask, (hnext task' hsome.symm).1, (hnext task' hsome.symm).2.1⟩
    · exact ⟨task', by cases op <;> exact hsome, rfl, rfl⟩
  refine ⟨fun hroot n => ?_, fun slot' task' htask' => ?_, fun slot' task' r htask' hr => ?_,
    fun slot₁ slot₂ task₁ task₂ htask₁ htask₂ hr hname => ?_, fun r hr => ?_,
    fun slot' task' htask' hr r hreserved => ?_, ?_⟩
  · by_contra hsome
    exact perform_none hsome (h.rootless (by cases op <;> exact hroot) n)
  · obtain ⟨before, hbefore, hname, -⟩ := hold htask'
    rw [hname]
    obtain ⟨e', he'⟩ := Option.ne_none_iff_exists'.mp (h.file slot' before hbefore)
    change (s.perform task.name op).files before.name ≠ none
    by_cases hn : before.name = task.name
    · rw [hn, hself]
      exact Option.some_ne_none _
    · rcases perform_other op hn he' with hfile | hfile <;> rw [hfile] <;>
        exact Option.some_ne_none _
  · rcases setTask_cases htask' with ⟨rfl, hsome⟩ | ⟨hslot, hsome⟩
    · obtain ⟨hname, hrequest, hprogress⟩ := hnext task' hsome.symm
      have hr' := hrequest.symm.trans hr
      refine ⟨hname.trans (h.progress slot' task r htask hr').1, fun e' he' => ?_⟩
      rw [hname] at he'
      cases hself.symm.trans he'
      exact hprogress r e hr' he
    · have hsome' : s.tasks slot' = some task' := by cases op <;> exact hsome
      obtain ⟨hname, hprogress⟩ := h.progress slot' task' r hsome' hr
      refine ⟨hname, fun e' he' => ?_⟩
      obtain ⟨e₀, he₀⟩ := Option.ne_none_iff_exists'.mp (h.file slot' task' hsome')
      have hn : task'.name ≠ task.name := fun heq =>
        hslot (h.apart slot' slot task' task hsome' htask (by rw [hr]; exact Option.some_ne_none r)
          heq.symm).symm
      rcases perform_other op hn he₀ with hfile | hfile
      · rw [← Option.some.inj (hfile.symm.trans he')]
        exact hprogress e₀ he₀
      · rw [← Option.some.inj (hfile.symm.trans he')]
        exact (hprogress e₀ he₀).link
  · obtain ⟨before₁, hbefore₁, hname₁, hrequest₁⟩ := hold htask₁
    obtain ⟨before₂, hbefore₂, hname₂, -⟩ := hold htask₂
    exact h.apart slot₁ slot₂ before₁ before₂ hbefore₁ hbefore₂ (hrequest₁ ▸ hr)
      (hname₂.symm.trans (hname.trans hname₁))
  · have hr' : r ∈ s.reserved := by cases op <;> exact hr
    obtain ⟨e₀, he₀⟩ := h.kept r hr'
    exact Kept.performed he₀ task.name op
  · have hr' : r ∈ s.reserved := by cases op <;> exact hreserved
    obtain ⟨before, hbefore, hname, hrequest⟩ := hold htask'
    rw [hname]
    exact h.fresh slot' before hbefore (hrequest ▸ hr) r hr'
  · cases op <;> exact h.nodup

/-- A file is created where there was none. -/
lemma Sound.created (h : Sound sha512 s) (hvalid : Valid r) (hroot : s.root ≠ none)
    (hfile : s.files (r.name sha512) = none) :
    Sound sha512 (State.setTask { s with
      files := Function.update s.files (r.name sha512) (some ⟨[], 0, false⟩) } slot
        (some (r.task sha512))) := by
  have hfiles {n : Bytes} (hn : s.files n ≠ none) :
      Function.update s.files (r.name sha512) (some ⟨[], 0, false⟩) n = s.files n :=
    Function.update_of_ne (fun heq => hn (by rw [heq, hfile])) _ _
  have hnew := Function.update_self (r.name sha512) (some (⟨[], 0, false⟩ : Entry)) s.files
  refine ⟨fun hnone => absurd hnone hroot, fun slot' task' htask' => ?_,
    fun slot' task' r' htask' hr' => ?_, fun slot₁ slot₂ task₁ task₂ htask₁ htask₂ hr hname => ?_,
    fun r' hr' => ?_, fun slot' task' htask' hr r' hr' => ?_, h.nodup⟩
  · rcases setTask_cases htask' with ⟨-, hsome⟩ | ⟨-, hsome⟩
    · cases hsome
      exact hnew.trans_ne (Option.some_ne_none _)
    · have hexists := h.file slot' task' hsome
      exact (hfiles hexists).trans_ne hexists
  · rcases setTask_cases htask' with ⟨-, hsome⟩ | ⟨-, hsome⟩
    · cases hsome
      cases hr'
      refine ⟨rfl, fun e he => ?_⟩
      rw [← Option.some.inj (hnew.symm.trans he)]
      exact progress_start hvalid
    · obtain ⟨hname, hprogress⟩ := h.progress slot' task' r' hsome hr'
      exact ⟨hname, fun e he => hprogress e ((hfiles (h.file slot' task' hsome)).symm.trans he)⟩
  · rcases setTask_cases htask₁ with ⟨hslot₁, hsome₁⟩ | ⟨-, hsome₁⟩ <;>
      rcases setTask_cases htask₂ with ⟨hslot₂, hsome₂⟩ | ⟨-, hsome₂⟩
    · exact hslot₂.trans hslot₁.symm
    · cases hsome₁
      exact absurd (hname ▸ hfile) (h.file slot₂ task₂ hsome₂)
    · cases hsome₂
      exact absurd (hname ▸ hfile) (h.file slot₁ task₁ hsome₁)
    · exact h.apart slot₁ slot₂ task₁ task₂ hsome₁ hsome₂ hr hname
  · obtain ⟨e, he, hkept⟩ := h.kept r' hr'
    exact ⟨e, (hfiles (he ▸ Option.some_ne_none e)).trans he, hkept⟩
  · rcases setTask_cases htask' with ⟨-, hsome⟩ | ⟨-, hsome⟩
    · cases hsome
      obtain ⟨e, he, -⟩ := h.kept r' hr'
      intro heq
      rw [heq] at he
      exact absurd (he.symm.trans hfile) (Option.some_ne_none e)
    · exact h.fresh slot' task' hsome hr r' hr'

/-- A call that opens the file of a reservation. -/
lemma Sound.opened (h : Sound sha512 s) (hr : r ∈ s.reserved) :
    Sound sha512 (s.setTask slot (some ⟨r.name sha512, completedOps, none⟩)) := by
  obtain ⟨e, he, -⟩ := h.kept r hr
  refine ⟨h.rootless, fun slot' task' htask' => ?_, fun slot' task' r' htask' hr' => ?_,
    fun slot₁ slot₂ task₁ task₂ htask₁ htask₂ hr₁ hname => ?_, h.kept,
    fun slot' task' htask' hr' => ?_, h.nodup⟩
  · rcases setTask_cases htask' with ⟨-, hsome⟩ | ⟨-, hsome⟩
    · cases hsome
      exact he.trans_ne (Option.some_ne_none e)
    · exact h.file slot' task' hsome
  · rcases setTask_cases htask' with ⟨-, hsome⟩ | ⟨-, hsome⟩
    · cases hsome
      cases hr'
    · exact h.progress slot' task' r' hsome hr'
  · rcases setTask_cases htask₁ with ⟨-, hsome₁⟩ | ⟨-, hsome₁⟩
    · cases hsome₁
      exact absurd rfl hr₁
    · rcases setTask_cases htask₂ with ⟨-, hsome₂⟩ | ⟨-, hsome₂⟩
      · cases hsome₂
        exact absurd hname (h.fresh slot₁ task₁ hsome₁ hr₁ r hr)
      · exact h.apart slot₁ slot₂ task₁ task₂ hsome₁ hsome₂ hr₁ hname
  · rcases setTask_cases htask' with ⟨-, hsome⟩ | ⟨-, hsome⟩
    · cases hsome
      exact absurd rfl hr'
    · exact h.fresh slot' task' hsome hr'

/-- A call of `reserve` returns. -/
lemma Sound.reserves (h : Sound sha512 s) {task : Task} (htask : s.tasks slot = some task)
    (hops : task.ops = []) (hr : task.request = some r) :
    Sound sha512 { s.setTask slot none with reserved := s.reserved ++ [r] } := by
  have hdrop := h.drop slot
  have hsome : task.request ≠ none := hr.trans_ne (Option.some_ne_none r)
  obtain ⟨hname, hprogress⟩ := h.progress slot task r htask hr
  obtain ⟨e, he⟩ := Option.ne_none_iff_exists'.mp (h.file slot task htask)
  refine ⟨hdrop.rootless, hdrop.file, hdrop.progress, hdrop.apart, fun r' hr' => ?_,
    fun slot' task' htask' hr' r' hmem => ?_, ?_⟩
  · rcases List.mem_append.mp hr' with hold | hnew
    · exact h.kept r' hold
    · rw [List.mem_singleton.mp hnew, ← hname]
      exact ⟨e, he, (hops ▸ hprogress e he).kept⟩
  · rcases List.mem_append.mp hmem with hold | hnew
    · exact hdrop.fresh slot' task' htask' hr' r' hold
    · rcases setTask_cases htask' with ⟨-, hnone⟩ | ⟨hslot, hsome'⟩
      · cases hnone
      · rw [List.mem_singleton.mp hnew, ← hname]
        exact fun heq => hslot (h.apart slot' slot task' task hsome' htask hr' heq).symm
  · dsimp only
    rw [List.map_append, List.map_singleton]
    refine List.nodup_append.mpr ⟨h.nodup, List.nodup_singleton _, ?_⟩
    intro n hn n' hn' heq
    obtain ⟨r', hr', rfl⟩ := List.mem_map.mp hn
    rw [List.mem_singleton.mp hn', ← hname] at heq
    exact h.fresh slot task htask hsome r' hr' heq

lemma Sound.cut (h : Sound sha512 s) (entryKept : Bytes → Bool) (bytesKept : Bytes → ℕ) :
    Sound sha512 { s with
      root := s.root.map fun _ => true
      files := fun n => ((s.files n).filter fun e => e.linked || entryKept n).map
        fun e => e.cut (bytesKept n)
      tasks := fun _ => none } := by
  refine sound_idle (fun hroot n => ?_) (fun _ => rfl) (fun r hr => ?_) h.nodup
  · dsimp only at hroot ⊢
    rw [h.rootless (Option.map_eq_none_iff.mp hroot)]
    rfl
  · obtain ⟨e, he, hkept⟩ := h.kept r hr
    refine ⟨e.cut (bytesKept (r.name sha512)), ?_, hkept.cut _⟩
    dsimp only
    rw [he, Option.filter_some, hkept.linked]
    rfl

lemma Sound.step {event : Event} (h : Sound sha512 s) (hroot : KeepsRoot s event)
    (hstep : step sha512 s event = .ok s') : Sound sha512 s' := by
  cases event with
  | createRoot =>
    simp only [ExecutionLedger.step, bind_ok_iff, pure_ok_iff] at hstep
    obtain ⟨_, -, rfl⟩ := hstep
    exact h.with_root false
  | syncRoot =>
    simp only [ExecutionLedger.step, bind_ok_iff, pure_ok_iff] at hstep
    obtain ⟨_, -, rfl⟩ := hstep
    exact h.with_root true
  | reserve slot r =>
    simp only [ExecutionLedger.step, bind_ok_iff, guard_ok_iff, pure_ok_iff] at hstep
    obtain ⟨_, hkey, _, hexecution, _, hexists, _, hfile, _, -, rfl⟩ := hstep
    exact h.created ⟨hkey, hexecution⟩ hexists hfile
  | markCompleted slot r =>
    simp only [ExecutionLedger.step, bind_ok_iff, guard_ok_iff, pure_ok_iff] at hstep
    obtain ⟨_, hr, _, -, _, -, rfl⟩ := hstep
    exact h.opened hr
  | run slot =>
    simp only [ExecutionLedger.step] at hstep
    cases htask : s.tasks slot with
    | none =>
      rw [htask] at hstep
      cases hstep
    | some task =>
      rw [htask] at hstep
      dsimp only at hstep
      cases hops : task.ops with
      | nil =>
        rw [hops] at hstep
        cases hstep
        cases hr : task.request with
        | none =>
          dsimp only [Option.toList]
          rw [List.append_nil]
          exact h.drop slot
        | some r => exact h.reserves htask hops hr
      | cons op ops =>
        rw [hops] at hstep
        cases hstep
        refine h.operate htask op _ fun task' hnext => ?_
        cases hnext
        refine ⟨rfl, rfl, fun r e hr he => ?_⟩
        exact (hops ▸ (h.progress slot task r htask hr).2 e he).next
  | fail slot written =>
    simp only [ExecutionLedger.step] at hstep
    cases htask : s.tasks slot with
    | none =>
      rw [htask] at hstep
      cases hstep
    | some task =>
      rw [htask] at hstep
      dsimp only at hstep
      split at hstep
      · cases hstep
        exact h.operate htask _ none fun _ hnone => absurd hnone.symm (Option.some_ne_none _)
      · cases hstep
        exact h.drop slot
  | powerLoss rootKept entryKept bytesKept =>
    simp only [ExecutionLedger.step] at hstep
    split_ifs at hstep with hkept
    · cases hstep
      exact h.cut entryKept bytesKept
    · cases hstep
      rw [not_or] at hkept
      obtain hdisk | hnone | hspared := hroot
      · exact absurd hdisk hkept.1
      · have hempty : s.reserved = [] := by
          refine List.eq_nil_iff_forall_not_mem.mpr fun r hr => ?_
          obtain ⟨e, he, -⟩ := h.kept r hr
          exact absurd ((h.rootless hnone _).symm.trans he) (Option.some_ne_none e).symm
        exact sound_idle (fun _ _ => rfl) (fun _ => rfl)
          (fun r hr => absurd (hempty ▸ hr) List.not_mem_nil) h.nodup
      · exact absurd hspared hkept.2

lemma step_replay (hvalid : Valid r) (hroot : s.root ≠ none)
    (hfile : s.files (r.name sha512) ≠ none) :
    step sha512 s (.reserve slot r) = .error .Replay := by
  simp only [step]
  rw [hvalid.1, ok_bind, hvalid.2, ok_bind, guard_of_true hroot, ok_bind,
    Checked.guard, if_neg hfile]
  rfl

/-- A reservation is given once: its tombstone stays, complete, and turns every other call down. -/
theorem reserved_once (sha512 : Sha512) (events : List Event)
    (hroot : (machine sha512).Along KeepsRoot .init events) :
    let s := (machine sha512).run .init events
    (s.reserved.map fun r => (r.keyId, r.executionId)).Nodup ∧
      ∀ r ∈ s.reserved,
        (∃ e, s.files (fileName sha512 r.keyId r.executionId) = some e ∧
          r.record <+: e.contents) ∧
        ∀ slot intentHash,
          step sha512 s (.reserve slot ⟨r.keyId, r.executionId, intentHash⟩) =
            .error .Replay := by
  intro s
  have h : Sound sha512 s := Machine.run_induction_along
    (fun _ _ _ hs hkeeps hstep => hs.step hkeeps hstep) events sound_init hroot
  refine ⟨?_, fun r hr => ?_⟩
  · have hnodup := h.nodup
    rw [show Request.name sha512 = (fun p => fileName sha512 p.1 p.2) ∘
      fun r => (r.keyId, r.executionId) from rfl, ← List.map_map] at hnodup
    exact hnodup.of_map _
  · obtain ⟨e, he, hkept⟩ := h.kept r hr
    have hfile := he.trans_ne (Option.some_ne_none e)
    exact ⟨⟨e, he, hkept.record⟩, fun slot intentHash => step_replay hkept.valid
      (fun hnone => hfile (h.rootless hnone _)) hfile⟩

/-! ### A run -/

/-- Bytes 32 to 64 of the message come first. -/
def smallSha512 : Sha512 := fun message =>
  ⟨toBeBytes 64 (ofBeBytes message.reverse), length_toBeBytes 64 _⟩

def smallRequest : Request := ⟨ascii "key-1", ascii "execution-1", bytes32 7⟩

/-- A reservation, and a power loss that spares only what was synced. -/
def smallRun : List Event :=
  [.createRoot, .syncRoot, .reserve 0 smallRequest, .run 0, .run 0, .run 0, .run 0, .run 0, .run 0,
    .run 0, .powerLoss false (fun _ => false) fun _ => 0]

theorem reserved_once_crash :
    let s := (machine smallSha512).run .init smallRun
    s.reserved = [smallRequest] ∧
      ∀ r ∈ s.reserved, ∀ slot intentHash,
        step smallSha512 s (.reserve slot ⟨r.keyId, r.executionId, intentHash⟩) =
          .error .Replay :=
  ⟨by decide +kernel, fun r hr =>
    ((reserved_once smallSha512 smallRun (by decide +kernel)).2 r hr).2⟩

/-! ### Names -/

/-- The number that two digits stand for. -/
def ofHexDigits (digits : Bytes) : ℕ := digits.foldl (fun n digit => 16 * n + HEX.idxOf digit) 0

lemma hexByte_injective : Function.Injective hexByte := by
  have h : ∀ a : Fin 256, ofHexDigits (hexByte (.ofFin a)) = a.val := by decide +kernel
  intro a b hab
  have hdigits := congrArg ofHexDigits hab
  rw [← UInt8.ofFin_toFin a, ← UInt8.ofFin_toFin b, h, h] at hdigits
  exact UInt8.toFin_inj.mp (Fin.ext hdigits)

lemma toHex_inj {a b : Bytes} (hlength : a.length = b.length) (h : toHex a = toHex b) : a = b := by
  have hwidth : ∀ byte, (hexByte byte).length = 2 := fun _ => rfl
  exact List.map_injective_iff.mpr hexByte_injective (flatMap_inj hwidth hlength h)

lemma name_inj (p p' : Bytes × Bytes)
    (h : fileName sha512 p.1 p.2 = fileName sha512 p'.1 p'.2) :
    (sha512 (preimage p.1 p.2)).val.take 32 = (sha512 (preimage p'.1 p'.2)).val.take 32 := by
  refine toHex_inj ?_ (List.append_cancel_right h)
  rw [List.length_take, List.length_take, (sha512 _).property, (sha512 _).property]

lemma validateIdentifier_ok {value : Bytes} {u : Unit} (h : validateIdentifier value = .ok u) :
    value.length ≤ 256 :=
  not_lt.mp fun hlong => guard_ok_iff.mp h (.inr hlong)

/-- The lengths tell where the key ends. -/
lemma preimage_inj {a a' b b' : Bytes} (ha : a.length ≤ 256) (ha' : a'.length ≤ 256)
    (h : preimage a b = preimage a' b') : a = a' ∧ b = b' := by
  simp only [preimage, List.append_assoc] at h
  have h := (List.append_inj h rfl).2
  obtain ⟨hlength, h⟩ := List.append_inj h (by simp)
  have hval := congrArg ofBeBytes hlength
  rw [ofBeBytes_toBeBytes (ha.trans_lt (by norm_num)),
    ofBeBytes_toBeBytes (ha'.trans_lt (by norm_num))] at hval
  obtain ⟨hkey, h⟩ := List.append_inj h hval
  exact ⟨hkey, (List.append_inj h (by simp)).2⟩

/-- Only `reserve` creates a file. -/
lemma created_of_step {event : Event} (hstep : step sha512 s event = .ok s')
    (h : s'.files n ≠ none) : s.files n ≠ none ∨
      ∃ slot r, event = .reserve slot r ∧ r.keyId.length ≤ 256 ∧ n = r.name sha512 := by
  cases event with
  | createRoot | syncRoot =>
    simp only [step, bind_ok_iff, pure_ok_iff] at hstep
    obtain ⟨_, -, rfl⟩ := hstep
    exact .inl h
  | markCompleted slot r =>
    simp only [step, bind_ok_iff, pure_ok_iff] at hstep
    obtain ⟨_, -, _, -, _, -, rfl⟩ := hstep
    exact .inl h
  | reserve slot r =>
    simp only [step, bind_ok_iff, pure_ok_iff] at hstep
    obtain ⟨_, hvalid, _, -, _, -, _, -, _, -, rfl⟩ := hstep
    by_cases hname : n = r.name sha512
    · exact .inr ⟨slot, r, rfl, validateIdentifier_ok hvalid, hname⟩
    · left
      intro hnone
      exact h ((Function.update_of_ne hname _ _).trans hnone)
  | run slot =>
    left
    simp only [step] at hstep
    cases htask : s.tasks slot with
    | none =>
      rw [htask] at hstep
      cases hstep
    | some task =>
      rw [htask] at hstep
      dsimp only at hstep
      split at hstep
      · cases hstep
        exact h
      · cases hstep
        exact perform_none h
  | fail slot written =>
    left
    simp only [step] at hstep
    cases htask : s.tasks slot with
    | none =>
      rw [htask] at hstep
      cases hstep
    | some task =>
      rw [htask] at hstep
      dsimp only at hstep
      split at hstep
      · cases hstep
        change (s.perform task.name (.writeAll _)).files n ≠ none at h
        exact perform_none h
      · cases hstep
        exact h
  | powerLoss rootKept entryKept bytesKept =>
    left
    simp only [step] at hstep
    split_ifs at hstep
    · cases hstep
      intro hnone
      dsimp only at h
      rw [hnone] at h
      exact h rfl
    · cases hstep
      exact absurd rfl h

lemma replay_of_step (h : step sha512 s (.reserve slot r) = .error .Replay) :
    r.keyId.length ≤ 256 ∧ s.files (r.name sha512) ≠ none := by
  simp only [step, validateIdentifier, bind_error_iff, guard_error_iff, guard_ok_iff,
    pure_ne_error, reduceCtorEq, and_false, exists_false, false_or, or_false, and_true] at h
  obtain ⟨_, hvalid, _, -, _, -, hfile⟩ := h
  exact ⟨not_lt.mp fun hlong => hvalid (.inr hlong), hfile⟩

/-- A replay has been requested before, unless names collide. -/
theorem replay_requested (sha512 : Sha512) (events : List Event) (slot : ℕ) (r : Request)
    (hcollision : ∀ slot' r', .reserve slot' r' ∈ events →
      (sha512 (preimage r.keyId r.executionId)).val.take 32 =
        (sha512 (preimage r'.keyId r'.executionId)).val.take 32 →
      preimage r.keyId r.executionId = preimage r'.keyId r'.executionId)
    (h : step sha512 ((machine sha512).run .init events) (.reserve slot r) = .error .Replay) :
    ∃ slot' r', .reserve slot' r' ∈ events ∧ r'.keyId = r.keyId ∧
      r'.executionId = r.executionId := by
  obtain ⟨hlength, hfile⟩ := replay_of_step h
  obtain ⟨pre, event, mid, rfl, ⟨slot', r', rfl, hlength', hname⟩, -⟩ :=
    Machine.run_since (M := machine sha512) (P := fun s => s.files (r.name sha512) ≠ none)
      (E := fun _ event => ∃ slot r', event = .reserve slot r' ∧ r'.keyId.length ≤ 256 ∧
        r.name sha512 = r'.name sha512)
      (fun hinit => hinit rfl) (fun _ _ _ hstep hnew => created_of_step hstep hnew) hfile
  have hmem : .reserve slot' r' ∈ pre ++ .reserve slot' r' :: mid :=
    List.mem_append_right _ List.mem_cons_self
  have hsame := hcollision slot' r' hmem
    (name_inj (r.keyId, r.executionId) (r'.keyId, r'.executionId) hname)
  obtain ⟨hkey, hexecution⟩ := preimage_inj hlength hlength' hsame
  exact ⟨slot', r', hmem, hkey.symm, hexecution.symm⟩

/-- After the power loss the execution is still known. -/
theorem replay_requested_crash : ∃ slot r, .reserve slot r ∈ smallRun ∧
    r.keyId = smallRequest.keyId ∧ r.executionId = smallRequest.executionId := by
  refine replay_requested smallSha512 smallRun 1 smallRequest (fun slot r hr _ => ?_)
    (step_replay ⟨guard_of_true (by decide +kernel), guard_of_true (by decide +kernel)⟩
      (by decide +kernel) (by decide +kernel))
  simp only [smallRun, List.mem_cons, reduceCtorEq, Event.reserve.injEq, List.not_mem_nil,
    or_false, false_or] at hr
  rw [hr.2]

end Suwappu.MpcSigner.ExecutionLedger
