import Suwappu.Near.Book

/-!
# The book of a contract's records

Phases and deals are read off the escrows a contract keeps and the escrows it opened. What a record
may lose on the way, `origin` forgets.
-/

namespace Suwappu.Near

variable {id : ℕ} {α : Type} (status : α → EscrowStatus) (deal : α → Deal)

def phases (escrows : ℕ → Option α) (id : ℕ) : Option Phase :=
  (escrows id).map fun e => (status e).phase

def deals (opened : ℕ → Option α) (id : ℕ) : Deal := ((opened id).map deal).getD ⟨"", "", 0, 0⟩

variable {status deal} {escrows opened : ℕ → Option α} {e e' : α}

lemma phases_of_some (h : escrows id = some e) : phases status escrows id = (status e).phase := by
  rw [phases, h, Option.map_some]

lemma deals_of_some (h : opened id = some e) : deals deal opened id = deal e := by
  rw [deals, h, Option.map_some, Option.getD_some]

lemma phases_update (o : Option α) : phases status (Function.update escrows id o) =
    Function.update (phases status escrows) id (o.map fun e => (status e).phase) := by
  funext j
  by_cases h : j = id
  · subst h
    simp [phases]
  · simp [phases, h]

lemma deals_update (e : α) : deals deal (Function.update opened id (some e)) =
    Function.update (deals deal opened) id (deal e) := by
  funext j
  by_cases h : j = id
  · subst h
    simp [deals]
  · simp [deals, h]

/-- A record may change within its phase. -/
lemma phases_update_same (h : escrows id = some e) (hphase : (status e').phase = (status e).phase) :
    phases status (Function.update escrows id (some e')) = phases status escrows := by
  rw [phases_update, Option.map_some, hphase, ← phases_of_some h, Function.update_eq_self]

/-- Every record is as it was opened, up to what `origin` forgets. -/
structure Records (origin : α → α) (nextId : ℕ) (escrows opened : ℕ → Option α) : Prop where
  origin : ∀ id e, escrows id = some e → opened id = some (origin e)
  known : ∀ id < nextId, ∃ e, opened id = some e

namespace Records

variable {origin : α → α} {nextId : ℕ}

/-- A record is written over. -/
lemma insert (hR : Records origin nextId escrows opened) (he : escrows id = some e)
    (ho : origin e' = origin e) :
    Records origin nextId (Function.update escrows id (some e')) opened where
  origin j d hd := by
    by_cases hj : j = id
    · subst hj
      rw [Function.update_self, Option.some.injEq] at hd
      rw [← hd, ho]
      exact hR.origin j e he
    · rw [Function.update_of_ne hj] at hd
      exact hR.origin j d hd
  known := hR.known

lemma create (hR : Records origin nextId escrows opened) (ho : origin e = e) :
    Records origin (nextId + 1) (Function.update escrows nextId (some e))
      (Function.update opened nextId (some e)) where
  origin j d hd := by
    by_cases hj : j = nextId
    · subst hj
      rw [Function.update_self, Option.some.injEq] at hd
      rw [Function.update_self, ← hd, ho]
    · rw [Function.update_of_ne hj] at hd ⊢
      exact hR.origin j d hd
  known j hj := by
    by_cases hne : j = nextId
    · exact ⟨e, by rw [hne, Function.update_self]⟩
    · rw [Function.update_of_ne hne]
      exact hR.known j (by omega)

lemma remove (hR : Records origin nextId escrows opened) (id : ℕ) :
    Records origin nextId (Function.update escrows id none) opened where
  origin j d hd := by
    by_cases hj : j = id
    · subst hj
      simp at hd
    · rw [Function.update_of_ne hj] at hd
      exact hR.origin j d hd
  known := hR.known

end Records

end Suwappu.Near
