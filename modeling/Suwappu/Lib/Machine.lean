import Mathlib.Tactic

/-!
# Machines that roll failed calls back

A machine answers every call either with a new state or with an error, and a failing call leaves
the state as it was. `run` replays a list of calls. Invariants are proved once for a single
successful step and carried over all runs by `run_induction`; `run_induction_along` does the same
for the runs whose steps all meet a side condition.
-/

universe u v w

/-- A deterministic machine with states `σ`, calls `α` and errors `ε`. -/
structure Machine (σ : Type u) (α : Type v) (ε : Type w) where
  step : σ → α → Except ε σ

namespace Machine

variable {σ : Type u} {α : Type v} {ε : Type w} (M : Machine σ α ε)

/-- One call: its result when it succeeds, the old state when it fails. -/
def exec (s : σ) (a : α) : σ :=
  match M.step s a with
  | .ok s'   => s'
  | .error _ => s

/-- A list of calls, in order. -/
def run (s : σ) (as : List α) : σ := as.foldl M.exec s

/-- Every call of the run meets `C` in the state it is made in. -/
def Along (C : σ → α → Prop) : σ → List α → Prop
  | _, []      => True
  | s, a :: as => C s a ∧ Along C (M.exec s a) as

instance decidableAlong {C : σ → α → Prop} [∀ s a, Decidable (C s a)] :
    ∀ s as, Decidable (M.Along C s as)
  | _, []      => .isTrue trivial
  | s, a :: as =>
    have := decidableAlong (C := C) (M.exec s a) as
    inferInstanceAs (Decidable (C s a ∧ M.Along C (M.exec s a) as))

variable {M}

lemma exec_ok {s s' : σ} {a : α} (h : M.step s a = .ok s') : M.exec s a = s' := by
  simp [exec, h]

lemma exec_error {s : σ} {a : α} {e : ε} (h : M.step s a = .error e) : M.exec s a = s := by
  simp [exec, h]

lemma step_of_isOk {s : σ} {a : α} (h : (M.step s a).isOk = true) :
    M.step s a = .ok (M.exec s a) := by
  cases hs : M.step s a with
  | ok s'   => rw [exec_ok hs]
  | error e => simp [hs, Except.isOk, Except.toBool] at h

@[simp] lemma run_nil (s : σ) : M.run s [] = s := rfl

@[simp] lemma run_cons (s : σ) (a : α) (as : List α) :
    M.run s (a :: as) = M.run (M.exec s a) as := rfl

lemma run_append (s : σ) (as bs : List α) : M.run s (as ++ bs) = M.run (M.run s as) bs :=
  List.foldl_append

/-- A call either fails and changes nothing, or takes a step. -/
lemma exec_cases (s : σ) (a : α) : M.exec s a = s ∨ M.step s a = .ok (M.exec s a) := by
  cases h : M.step s a with
  | ok s'   => exact .inr (by rw [exec_ok h])
  | error e => exact .inl (exec_error h)

lemma exec_induction {I : σ → Prop} {s : σ} {a : α}
    (hstep : ∀ s', M.step s a = .ok s' → I s') (hs : I s) : I (M.exec s a) := by
  rcases exec_cases (M := M) s a with h | h
  · rwa [h]
  · exact hstep _ h

/-- A condition on the calls alone. -/
lemma along_of_forall {C : α → Prop} :
    ∀ {as : List α} {s : σ}, (∀ a ∈ as, C a) → M.Along (fun _ a => C a) s as
  | [], _, _ => trivial
  | _ :: _, _, h => ⟨h _ List.mem_cons_self,
      along_of_forall fun a ha => h a (List.mem_cons_of_mem _ ha)⟩

lemma Along.and_forall {C : σ → α → Prop} {D : α → Prop} :
    ∀ {as : List α} {s : σ}, M.Along C s as → (∀ a ∈ as, D a) →
      M.Along (fun s a => C s a ∧ D a) s as
  | [], _, _, _ => trivial
  | _ :: _, _, h, hD => ⟨⟨h.1, hD _ List.mem_cons_self⟩,
      h.2.and_forall fun a ha => hD a (List.mem_cons_of_mem _ ha)⟩

/-- What every run starts with. -/
lemma Along.of_initial {C : σ → α → Prop} :
    ∀ {bs as : List α} {s : σ}, M.Along C s as → bs <+: as → M.Along C s bs
  | [], _, _, _, _ => trivial
  | b :: bs, as, s, h, hbs => by
    obtain ⟨as', rfl, hbs'⟩ := List.cons_prefix_iff.mp hbs
    exact ⟨h.1, of_initial h.2 hbs'⟩

/-- What holds along a run holds at each call of it. -/
lemma Along.mid {C : σ → α → Prop} {a : α} {as bs : List α} {s : σ}
    (h : M.Along C s (as ++ a :: bs)) : C (M.run s as) a := by
  induction as generalizing s with
  | nil => exact h.1
  | cons b as ih => exact ih h.2

/-- What every step keeps along runs that meet `C`, such a run keeps. -/
theorem run_induction_along {I : σ → Prop} {C : σ → α → Prop}
    (hstep : ∀ s a s', I s → C s a → M.step s a = .ok s' → I s') :
    ∀ (as : List α) {s : σ}, I s → M.Along C s as → I (M.run s as)
  | [], _, hs, _ => hs
  | a :: as, s, hs, hC =>
    have h : I (M.exec s a) := exec_induction (fun s' h => hstep s a s' hs hC.1 h) hs
    run_induction_along hstep as h hC.2

/-- What an invariant and a condition say of each step of a run. -/
lemma Along.mono {I : σ → Prop} {C D : σ → α → Prop}
    (hstep : ∀ s a s', I s → C s a → M.step s a = .ok s' → I s')
    (hD : ∀ s a, I s → C s a → D s a) :
    ∀ {as : List α} {s : σ}, I s → M.Along C s as → M.Along D s as
  | [], _, _, _ => trivial
  | a :: _, s, hs, hC =>
    have h : I (M.exec s a) := exec_induction (fun s' h => hstep s a s' hs hC.1 h) hs
    ⟨hD s a hs hC.1, Along.mono hstep hD h hC.2⟩

/-- What every step keeps, every run keeps. -/
theorem run_induction {I : σ → Prop} (hstep : ∀ s a s', I s → M.step s a = .ok s' → I s')
    {s : σ} (hs : I s) (as : List α) : I (M.run s as) := by
  induction as generalizing s with
  | nil => exact hs
  | cons a as ih => exact ih (exec_induction (fun s' h => hstep s a s' hs h) hs)

/-- A number that no call raises by more than one is raised by at most the number of calls. -/
lemma run_le_length {f : σ → ℕ} (hstep : ∀ s a s', M.step s a = .ok s' → f s' ≤ f s + 1)
    (as : List α) {s : σ} : f (M.run s as) ≤ f s + as.length := by
  induction as generalizing s with
  | nil => exact le_rfl
  | cons a as ih =>
    have hfirst : f (M.exec s a) ≤ f s + 1 :=
      exec_induction (I := fun s' => f s' ≤ f s + 1) (hstep s a) (Nat.le_succ _)
    have hrest := ih (s := M.exec s a)
    rw [run_cons, List.length_cons]
    omega

/-- Where a condition on a call says exactly that the call keeps `G`, it holds along a run just in
case `G` holds in every state of it. -/
theorem along_iff_forall_initial {I G : σ → Prop} {C : σ → α → Prop}
    (hstep : ∀ s a, I s → I (M.exec s a))
    (hiff : ∀ s a, I s → G s → (C s a ↔ G (M.exec s a))) :
    ∀ (as : List α) {s : σ}, I s → G s →
      (M.Along C s as ↔ ∀ bs, bs <+: as → G (M.run s bs))
  | [], s, _, hG => by
    refine ⟨fun _ bs hbs => ?_, fun _ => trivial⟩
    rwa [List.prefix_nil.mp hbs]
  | a :: as, s, hI, hG => by
    constructor
    · rintro ⟨ha, has⟩ bs hbs
      rcases List.prefix_cons_iff.mp hbs with rfl | ⟨bs', rfl, hbs'⟩
      · exact hG
      · exact (along_iff_forall_initial hstep hiff as (hstep s a hI) ((hiff s a hI hG).mp ha)).mp
          has bs' hbs'
    · intro h
      have ha : G (M.exec s a) := h [a] (List.prefix_append [a] as)
      refine ⟨(hiff s a hI hG).mpr ha, ?_⟩
      rw [along_iff_forall_initial hstep hiff as (hstep s a hI) ha]
      exact fun bs hbs => h (a :: bs) (List.cons_prefix_cons.mpr ⟨rfl, hbs⟩)

section Tally

variable {ι : Type*} {I : σ → Prop} {C : σ → α → Prop} {r : σ → ι → ℕ} {w : σ → α → ι → ℕ}

/-- What the calls of a run are worth to the account `i`, each in the state it is made in. -/
def tally (M : Machine σ α ε) (w : σ → α → ι → ℕ) (i : ι) : σ → List α → ℕ
  | _, []      => 0
  | s, a :: as => w s a i + M.tally w i (M.exec s a) as

/-- A record that no call raises by more than its worth stays below the tally of every run. -/
lemma run_le_tally (hstep : ∀ s a, I s → I (M.exec s a))
    (hle : ∀ s a i, I s → r (M.exec s a) i ≤ r s i + w s a i) (i : ι) (as : List α) {s : σ}
    (hs : I s) : r (M.run s as) i ≤ r s i + M.tally w i s as := by
  induction as generalizing s with
  | nil => exact le_rfl
  | cons a as ih =>
    have hrest := ih (hstep s a hs)
    have hfirst := hle s a i hs
    rw [run_cons, tally]
    omega

/-- Such a record agrees with the tally at the end of a run just in case every call of the run
raises it by all of its worth. -/
theorem along_iff_tally (hstep : ∀ s a, I s → I (M.exec s a))
    (hle : ∀ s a i, I s → r (M.exec s a) i ≤ r s i + w s a i)
    (hiff : ∀ s a, I s → (C s a ↔ ∀ i, r (M.exec s a) i = r s i + w s a i)) (as : List α) {s : σ}
    (hs : I s) : M.Along C s as ↔ ∀ i, r (M.run s as) i = r s i + M.tally w i s as := by
  induction as generalizing s with
  | nil => exact iff_of_true trivial fun _ => rfl
  | cons a as ih =>
    have hs' := hstep s a hs
    rw [Along, hiff s a hs, ih hs']
    simp only [run_cons, tally]
    constructor
    · rintro ⟨hfirst, hrest⟩ i
      rw [hrest i, hfirst i, Nat.add_assoc]
    · intro h
      have hfirst : ∀ i, r (M.exec s a) i = r s i + w s a i := by
        intro i
        have hrest := run_le_tally hstep hle i as hs'
        have hraise := hle s a i hs
        have hend := h i
        omega
      refine ⟨hfirst, fun i => ?_⟩
      rw [h i, hfirst i, Nat.add_assoc]

end Tally

/-- What only calls that meet `E` bring about has held since such a call. -/
theorem run_since {P : σ → Prop} {E : σ → α → Prop} {s₀ : σ} (h₀ : ¬ P s₀) {as : List α}
    (hstep : ∀ bs a s', M.step (M.run s₀ bs) a = .ok s' → P s' →
      P (M.run s₀ bs) ∨ E (M.run s₀ bs) a) (h : P (M.run s₀ as)) :
    ∃ pre a mid, as = pre ++ a :: mid ∧ E (M.run s₀ pre) a ∧
      ∀ mid', mid' <+: mid → P (M.run s₀ (pre ++ a :: mid')) := by
  induction as using List.reverseRecOn with
  | nil => exact absurd h h₀
  | append_singleton as b ih =>
    have hlast : M.run s₀ (as ++ [b]) = M.exec (M.run s₀ as) b := by
      rw [run_append, run_cons, run_nil]
    have hb : P (M.run s₀ as) ∨ E (M.run s₀ as) b := by
      rcases exec_cases (M := M) (M.run s₀ as) b with hexec | hexec
      · exact .inl (by rwa [hlast, hexec] at h)
      · exact hstep as b _ hexec (hlast ▸ h)
    rcases hb with hP | hE
    · obtain ⟨pre, a, mid, rfl, ha, hmid⟩ := ih hP
      refine ⟨pre, a, mid ++ [b], by simp, ha, fun mid' hmid' => ?_⟩
      rcases List.prefix_concat_iff.mp hmid' with rfl | hprefix
      · simpa using h
      · exact hmid mid' hprefix
    · refine ⟨as, b, [], rfl, hE, fun mid' hmid' => ?_⟩
      rwa [List.prefix_nil.mp hmid']

end Machine
