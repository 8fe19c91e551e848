import Suwappu.Searcher.EventJson

/-!
# A reader and writer of compact text

`textSerde` writes compact text and reads it as `serde_json` does, with its limit of 127 nested
values. It keeps what `Faithful` promises.
-/

namespace Suwappu.Searcher

open JsonText

/-! ### Values -/

def textStr : Tree → Option String
  | .str s => some s
  | _      => none

def textBool : Tree → Option Bool
  | .bool b => some b
  | _       => none

def textWord (w : ℕ) : Tree → Option (Fin (2 ^ w))
  | .int z => if h : 0 ≤ z ∧ z.toNat < 2 ^ w then some ⟨z.toNat, h.2⟩ else none
  | _      => none

/-! ### Fields -/

section Fields

variable {α : Type} (fields : List (String × Tree)) (key : String) (read : Tree → Option α)

def entries : List (String × Tree) := fields.filter fun field => field.1 = key

/-- A field that stands exactly once. -/
def textRequired : Option α :=
  match entries fields key with
  | [field] => read field.2
  | _       => none

/-- A field that may be missing or `null`. -/
def textOptional : Option (Option α) :=
  match entries fields key with
  | []      => some none
  | [field] => nullable read field.2
  | _       => none

end Fields

def textSerde : Serde where
  toString := render
  fromStr := parse 127
  required := textRequired
  optional := textOptional
  readStr := textStr
  readBool := textBool
  readWord := textWord

section Entries

variable {fields : List (String × Tree)} {key other : String} {t : Tree}

lemma entries_cons_self (h : key ∉ fields.map Prod.fst) :
    entries ((key, t) :: fields) key = [(key, t)] := by
  rw [entries, List.filter_cons_of_pos (by simp), List.filter_eq_nil_iff.mpr]
  intro field hfield heq
  exact h (List.mem_map.mpr ⟨field, hfield, of_decide_eq_true heq⟩)

lemma entries_cons_of_ne (h : other ≠ key) :
    entries ((other, t) :: fields) key = entries fields key :=
  List.filter_cons_of_neg (by simpa using h)

end Entries

theorem textSerde_faithful : Faithful textSerde where
  line ht hmem := absurd (ht.printed _ hmem) (by decide)
  braces fields := by
    cases fields with
    | nil => exact ⟨[], rfl⟩
    | cons field fields => exact ⟨_, rfl⟩
  read_back ht := parse_render ht
  required_self {_ fields key t read} hkey := by
    change textRequired ((key, t) :: fields) key read = read t
    rw [textRequired, entries_cons_self hkey]
  required_of_ne {_ fields key other t read} hne := by
    change textRequired ((other, t) :: fields) key read = textRequired fields key read
    rw [textRequired, textRequired, entries_cons_of_ne hne]
  optional_self {_ fields key t read} hkey := by
    change textOptional ((key, t) :: fields) key read = nullable read t
    rw [textOptional, entries_cons_self hkey]
  optional_of_ne {_ fields key other t read} hne := by
    change textOptional ((other, t) :: fields) key read = textOptional fields key read
    rw [textOptional, textOptional, entries_cons_of_ne hne]
  str _ := rfl
  bool _ := rfl
  word {w} _ n := by
    change textWord w (.int n.val) = some n
    rw [textWord, dif_pos (by simp)]
    simp

end Suwappu.Searcher
