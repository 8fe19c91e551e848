import Mathlib.Data.List.Basic

/-!
# Histories

A history is the list of what has happened, the last event at its end. An event is recent until
another one resets it. `Follows` relates every event to those that are recent when it happens;
`follows_concat` is the rule for a history that grows.
-/

namespace History

variable {ε : Type*} {reset : ε → Prop} {R : ε → ε → Prop} {history : List ε} {e e' : ε}

/-- The event is in the history, and nothing after it resets it. -/
def Recent (reset : ε → Prop) (history : List ε) (e : ε) : Prop :=
  ∃ before after, history = before ++ e :: after ∧ ∀ x ∈ after, ¬ reset x

/-- Two events with no reset in between are related. -/
def Follows (reset : ε → Prop) (R : ε → ε → Prop) (history : List ε) : Prop :=
  ∀ before e between e' after, history = before ++ e :: (between ++ e' :: after) →
    (∀ x ∈ between, ¬ reset x) → R e e'

/-- Something holds of every event and what came before it. -/
def Each (P : List ε → ε → Prop) (history : List ε) : Prop :=
  ∀ before e after, history = before ++ e :: after → P before e

lemma each_nil {P : List ε → ε → Prop} : Each P [] := by
  intro before e after h
  cases before <;> cases h

lemma each_concat {P : List ε → ε → Prop} :
    Each P (history ++ [e]) ↔ Each P history ∧ P history e := by
  constructor
  · intro h
    exact ⟨fun before x after heq => h before x (after ++ [e]) (by simp [heq]), h history e [] rfl⟩
  · rintro ⟨hold, hnew⟩ before x after h
    rcases after.eq_nil_or_concat' with rfl | ⟨after, y, rfl⟩
    · obtain ⟨rfl, hlast⟩ := List.append_inj' h rfl
      obtain rfl := (List.cons.inj hlast).1
      exact hnew
    · rw [← List.cons_append, ← List.append_assoc] at h
      exact hold before x after (List.append_inj' h rfl).1

lemma not_recent_nil : ¬ Recent reset [] e := by
  rintro ⟨before, after, h, -⟩
  cases before <;> cases h

lemma follows_nil : Follows reset R [] := by
  intro before e between e' after h
  cases before <;> cases h

lemma Recent.mem (h : Recent reset history e) : e ∈ history := by
  obtain ⟨before, after, rfl, -⟩ := h
  exact List.mem_append_right before List.mem_cons_self

lemma recent_concat :
    Recent reset (history ++ [e']) e ↔ e = e' ∨ ¬ reset e' ∧ Recent reset history e := by
  constructor
  · rintro ⟨before, after, h, hreset⟩
    rcases after.eq_nil_or_concat' with rfl | ⟨after, x, rfl⟩
    · obtain ⟨-, hlast⟩ := List.append_inj' h rfl
      exact .inl (List.cons.inj hlast).1.symm
    · rw [← List.cons_append, ← List.append_assoc] at h
      obtain ⟨hinit, hlast⟩ := List.append_inj' h rfl
      obtain rfl := (List.cons.inj hlast).1
      exact .inr ⟨hreset e' (by simp), before, after, hinit,
        fun x hx => hreset x (List.mem_append_left _ hx)⟩
  · rintro (rfl | ⟨hlast, before, after, rfl, hreset⟩)
    · exact ⟨history, [], rfl, nofun⟩
    · refine ⟨before, after ++ [e'], by simp, fun x hx => ?_⟩
      rcases List.mem_append.mp hx with hx | hx
      · exact hreset x hx
      · rwa [List.mem_singleton.mp hx]

lemma follows_concat : Follows reset R (history ++ [e']) ↔
    Follows reset R history ∧ ∀ e, Recent reset history e → R e e' := by
  constructor
  · intro h
    constructor
    · rintro before e between x after rfl hreset
      exact h before e between x (after ++ [e']) (by simp) hreset
    · rintro e ⟨before, after, rfl, hreset⟩
      exact h before e after e' [] (by simp) hreset
  · rintro ⟨hold, hnew⟩ before e between x after h hreset
    rcases after.eq_nil_or_concat' with rfl | ⟨after, y, rfl⟩
    · rw [← List.cons_append, ← List.append_assoc] at h
      obtain ⟨rfl, hlast⟩ := List.append_inj' h rfl
      obtain rfl := (List.cons.inj hlast).1
      exact hnew e ⟨before, between, rfl, hreset⟩
    · have hinit : history ++ [e'] = (before ++ e :: (between ++ x :: after)) ++ [y] := by
        rw [h]
        simp
      exact hold before e between x after (List.append_inj' hinit rfl).1 hreset

end History
