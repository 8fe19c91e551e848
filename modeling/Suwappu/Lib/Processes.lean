import Suwappu.Lib.Checked
import Suwappu.Lib.Machine
import Suwappu.Lib.Totals

/-!
# Processes that share a state

Any number of processes run side by side. A step of one of them reads and changes the shared state
and moves the process on, with what its environment answers; between the steps the environment may
change the shared state by itself.

`Invariant` joins what holds of the shared state and of a total over the processes with what every
process knows of the shared state. `Inductive.run`: it holds along every run in which each single
step keeps it and disturbs nothing that another process knows.
-/

open Checked

/-- What a process does next, and what the environment does by itself. -/
structure Program (σ π α ω ε : Type*) where
  step : σ → π → α → Except ε (σ × π)
  environment : σ → ω → Except ε σ

namespace Program

variable {σ π α ω ε M : Type*} {n : ℕ}

structure Config (σ π : Type*) (n : ℕ) where
  shared : σ
  procs : Fin n → π

inductive Action (n : ℕ) (α ω : Type*) where
  | take (i : Fin n) (answer : α)
  | environment (event : ω)

section

variable (P : Program σ π α ω ε)

def next (c : Config σ π n) : Action n α ω → Except ε (Config σ π n)
  | .take i answer      =>
    (P.step c.shared (c.procs i) answer).map fun r => ⟨r.1, Function.update c.procs i r.2⟩
  | .environment event  => (P.environment c.shared event).map fun s => ⟨s, c.procs⟩

def machine (n : ℕ) : Machine (Config σ π n) (Action n α ω) ε := ⟨P.next⟩

end

variable {P : Program σ π α ω ε} {c c' : Config σ π n}

lemma map_ok_iff {β γ : Type*} {f : β → γ} {x : Except ε β} {b : γ} :
    x.map f = .ok b ↔ ∃ a, x = .ok a ∧ f a = b := by
  cases x <;> simp [Except.map]

lemma take_ok {i : Fin n} {answer : α} (h : (P.machine n).step c (.take i answer) = .ok c') :
    ∃ s p, P.step c.shared (c.procs i) answer = .ok (s, p) ∧
      c' = ⟨s, Function.update c.procs i p⟩ := by
  obtain ⟨r, hr, rfl⟩ := map_ok_iff.mp h
  exact ⟨r.1, r.2, hr, rfl⟩

lemma environment_ok {event : ω} (h : (P.machine n).step c (.environment event) = .ok c') :
    ∃ s, P.environment c.shared event = .ok s ∧ c' = ⟨s, c.procs⟩ := by
  obtain ⟨s, hs, rfl⟩ := map_ok_iff.mp h
  exact ⟨s, hs, rfl⟩

/-! ### Totals over the processes -/

section Totals

variable [AddCommMonoid M] (weight : π → M)

def Config.total (c : Config σ π n) : M := ∑ i, weight (c.procs i)

/-- The total without one process. -/
def Config.others (c : Config σ π n) (i : Fin n) : M :=
  ∑ j ∈ Finset.univ.erase i, weight (c.procs j)

lemma Config.total_eq (c : Config σ π n) (i : Fin n) :
    c.total weight = weight (c.procs i) + c.others weight i :=
  (Finset.add_sum_erase _ (fun j => weight (c.procs j)) (Finset.mem_univ i)).symm

lemma Config.total_update (c : Config σ π n) (i : Fin n) (s : σ) (p : π) :
    (Config.mk s (Function.update c.procs i p)).total weight =
      weight p + c.others weight i := by
  rw [Config.total_eq weight _ i]
  dsimp only
  rw [Function.update_self, Config.others, Config.others]
  refine congrArg _ (Finset.sum_congr rfl fun j hj => ?_)
  dsimp only
  rw [Function.update_of_ne (Finset.ne_of_mem_erase hj)]

variable [PartialOrder M] [IsOrderedAddMonoid M] [CanonicallyOrderedAdd M]

lemma Config.le_others (c : Config σ π n) {i j : Fin n} (h : j ≠ i) :
    weight (c.procs j) ≤ c.others weight i :=
  Finset.single_le_sum (f := fun j => weight (c.procs j)) (fun _ _ => zero_le)
    (Finset.mem_erase.mpr ⟨h, Finset.mem_univ j⟩)

lemma Config.le_total (c : Config σ π n) (i : Fin n) : weight (c.procs i) ≤ c.total weight :=
  Finset.single_le_sum (f := fun j => weight (c.procs j)) (fun _ _ => zero_le)
    (Finset.mem_univ i)

end Totals

/-! ### Invariants -/

/-- `I` holds of the shared state and the total, and every process knows `K`. -/
structure Invariant [AddCommMonoid M] (weight : π → M) (I : σ → M → Prop) (K : σ → π → Prop)
    (c : Config σ π n) : Prop where
  shared : I c.shared (c.total weight)
  knows : ∀ i, K c.shared (c.procs i)

/-- A side condition on single steps: of a process, given the total of the others, and of the
environment. -/
def Meets [AddCommMonoid M] (weight : π → M) (C : σ → M → π → α → Prop) (E : σ → M → ω → Prop)
    (c : Config σ π n) : Action n α ω → Prop
  | .take i answer     => C c.shared (c.others weight i) (c.procs i) answer
  | .environment event => E c.shared (c.total weight) event

instance decidableMeets [AddCommMonoid M] {weight : π → M} {C : σ → M → π → α → Prop}
    {E : σ → M → ω → Prop} [∀ s m p a, Decidable (C s m p a)] [∀ s m e, Decidable (E s m e)]
    (c : Config σ π n) : ∀ a, Decidable (Meets weight C E c a)
  | .take i answer     => inferInstanceAs (Decidable (C c.shared (c.others weight i) _ answer))
  | .environment event => inferInstanceAs (Decidable (E c.shared (c.total weight) event))

section Invariants

variable [AddCommMonoid M] [PartialOrder M] [IsOrderedAddMonoid M] [CanonicallyOrderedAdd M]
  {weight : π → M} {I : σ → M → Prop} {K : σ → π → Prop} {C : σ → M → π → α → Prop}
  {E : σ → M → ω → Prop}

/-- Each step that meets the side conditions keeps the invariant. -/
structure Inductive (P : Program σ π α ω ε) (weight : π → M) (I : σ → M → Prop)
    (K : σ → π → Prop) (C : σ → M → π → α → Prop) (E : σ → M → ω → Prop) : Prop where
  step : ∀ {s s' : σ} {p p' : π} {answer : α} {rest : M}, I s (weight p + rest) → K s p →
    C s rest p answer → P.step s p answer = .ok (s', p') → I s' (weight p' + rest) ∧ K s' p'
  stable : ∀ {s s' : σ} {p p' q : π} {answer : α} {rest : M}, I s (weight p + rest) → K s p →
    C s rest p answer → P.step s p answer = .ok (s', p') → weight q ≤ rest → K s q → K s' q
  environment : ∀ {s s' : σ} {event : ω} {total : M}, I s total → E s total event →
    P.environment s event = .ok s' → I s' total ∧ ∀ q, weight q ≤ total → K s q → K s' q

lemma Inductive.next (h : P.Inductive weight I K C E) {a : Action n α ω}
    (hc : Invariant weight I K c) (ha : Meets weight C E c a)
    (hstep : (P.machine n).step c a = .ok c') : Invariant weight I K c' := by
  cases a with
  | take i answer =>
    obtain ⟨s, p, hp, rfl⟩ := take_ok hstep
    have hshared := hc.shared
    rw [c.total_eq weight i] at hshared
    obtain ⟨hI, hK⟩ := h.step hshared (hc.knows i) ha hp
    refine ⟨?_, fun j => ?_⟩
    · rwa [c.total_update]
    · rcases eq_or_ne j i with rfl | hj
      · simpa only [Function.update_self] using hK
      · dsimp only
        rw [Function.update_of_ne hj]
        exact h.stable hshared (hc.knows i) ha hp (c.le_others weight hj) (hc.knows j)
  | environment event =>
    obtain ⟨s, hs, rfl⟩ := environment_ok hstep
    obtain ⟨hI, hK⟩ := h.environment hc.shared ha hs
    exact ⟨hI, fun i => hK _ (c.le_total weight i) (hc.knows i)⟩

/-- The invariant holds along every run that meets the side conditions. -/
theorem Inductive.run (h : P.Inductive weight I K C E) (as : List (Action n α ω))
    (hc : Invariant weight I K c) (has : (P.machine n).Along (Meets weight C E) c as) :
    Invariant weight I K ((P.machine n).run c as) :=
  Machine.run_induction_along (fun _ _ _ hc ha hstep => h.next hc ha hstep) as hc has

/-- Where there are no side conditions, along every run. -/
theorem Inductive.run_always (h : P.Inductive weight I K (fun _ _ _ _ => True) fun _ _ _ => True)
    (as : List (Action n α ω)) (hc : Invariant weight I K c) :
    Invariant weight I K ((P.machine n).run c as) :=
  Machine.run_induction (fun _ a _ hc hstep => h.next hc (by cases a <;> trivial) hstep) hc as

end Invariants

end Program
