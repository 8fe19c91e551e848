import Mathlib
import Suwappu.Searcher.OmsHistory

/-!
# The ids of the OMS events

An id is read from its end: the last two fields hold no colon, so an id determines the slot, what
the event reports, and the builder and the opportunity as one text. It does not say where in that
text the builder ends.
-/

namespace Suwappu.Searcher

/-- What an event of an order reports. -/
inductive Mark where
  | submission (sequence : U64)
  | landed | reverted | expired
deriving DecidableEq

/-- The start of the id. -/
def Mark.head : Mark → String
  | .submission _ => "oms:submission:"
  | _             => "oms:outcome:"

/-- The end of the id. -/
def Mark.tail : Mark → String
  | .submission sequence => Nat.repr sequence
  | .landed              => "1"
  | .reverted            => "0"
  | .expired             => "expired"

/-- Builder and opportunity as they stand in an id. -/
def orderText (key : OrderKey) : String := key.1 ++ ":" ++ key.2

def eventIdOf (key : OrderKey) (slot : U64) (mark : Mark) : EventId :=
  mark.head ++ orderText key ++ ":" ++ Nat.repr slot ++ ":" ++ mark.tail

lemma submissionEvent_eventId (request : SubmissionRequest) : (submissionEvent request).eventId =
    eventIdOf request.key request.slot (.submission request.replaceSequence) := by
  simp only [submissionEvent, omsEvent, eventIdOf, orderText, Mark.head, Mark.tail,
    SubmissionRequest.key, String.append_assoc]

/-! ### Reading an id -/

/-- Where two lists are split at their last `a`, they are split at the same place. -/
lemma append_cons_inj {α : Type} {a : α} {l l' t t' : List α} (ht : a ∉ t) (ht' : a ∉ t')
    (h : l ++ a :: t = l' ++ a :: t') : l = l' ∧ t = t' := by
  rcases List.append_eq_append_iff.mp h with ⟨c, rfl, hc⟩ | ⟨c, rfl, hc⟩
  · cases c with
    | nil => exact ⟨by simp, (List.cons.inj hc).2⟩
    | cons b c => exact absurd ((List.cons.inj hc).2 ▸ by simp) ht
  · cases c with
    | nil => exact ⟨by simp, (List.cons.inj hc).2.symm⟩
    | cons b c => exact absurd ((List.cons.inj hc).2 ▸ by simp) ht'

lemma colon_notMem_repr (n : ℕ) : ':' ∉ (Nat.repr n).toList := by
  rw [Nat.toList_repr]
  intro h
  exact absurd (Nat.isDigit_of_mem_toDigits (by norm_num) (by norm_num) h) (by decide)

lemma colon_notMem_tail (mark : Mark) : ':' ∉ mark.tail.toList := by
  cases mark with
  | submission sequence => exact colon_notMem_repr sequence
  | _ => decide

/-- The two kinds of ids differ in their fifth character. -/
lemma head_inj {mark mark' : Mark} {text text' : List Char}
    (h : mark.head.toList ++ text = mark'.head.toList ++ text') :
    mark.head = mark'.head ∧ text = text' := by
  have hhead : ∀ mark : Mark, mark.head = "oms:submission:" ∨ mark.head = "oms:outcome:" := by
    intro mark
    cases mark <;> simp [Mark.head]
  rcases hhead mark with hm | hm <;> rcases hhead mark' with hm' | hm' <;> rw [hm, hm'] at h ⊢
  · exact ⟨rfl, List.append_cancel_left h⟩
  · simp at h
  · simp at h
  · exact ⟨rfl, List.append_cancel_left h⟩

lemma mark_inj {mark mark' : Mark} (hhead : mark.head = mark'.head)
    (htail : mark.tail = mark'.tail) : mark = mark' := by
  cases mark <;> cases mark' <;> simp [Mark.head, Mark.tail] at hhead htail ⊢
  exact Fin.ext htail

/-- What an id determines. -/
lemma eventIdOf_inj {key key' : OrderKey} {slot slot' : U64} {mark mark' : Mark}
    (h : eventIdOf key slot mark = eventIdOf key' slot' mark') :
    orderText key = orderText key' ∧ slot = slot' ∧ mark = mark' := by
  have hlist : ∀ key slot mark, (eventIdOf key slot mark).toList = (mark.head.toList ++
      (orderText key).toList ++ ':' :: (Nat.repr slot).toList) ++ ':' :: mark.tail.toList := by
    intro key slot mark
    simp [eventIdOf]
  have h := congrArg String.toList h
  rw [hlist, hlist] at h
  obtain ⟨h, htail⟩ := append_cons_inj (colon_notMem_tail mark) (colon_notMem_tail mark') h
  obtain ⟨h, hslot⟩ := append_cons_inj (colon_notMem_repr slot) (colon_notMem_repr slot') h
  obtain ⟨hhead, htext⟩ := head_inj h
  exact ⟨String.toList_injective htext, Fin.ext (Nat.repr_inj.mp (String.toList_injective hslot)),
    mark_inj hhead (String.toList_injective htail)⟩

end Suwappu.Searcher
