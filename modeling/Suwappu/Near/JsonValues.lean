import Suwappu.Near.Json

/-!
# Values that are written and read back

An object maps keys to values and has no order, so that `serde_json` reads what it wrote up to the
order of fields. `Faithful` is what the contracts rely on.
-/

namespace Suwappu.Near.Json

/-- The same value, whatever the order of fields. -/
inductive Same : Json → Json → Prop
  | null : Same .null .null
  | bool (b : Bool) : Same (.bool b) (.bool b)
  | num (n : Number) : Same (.num n) (.num n)
  | str (s : String) : Same (.str s) (.str s)
  | arr {items items' : List Json} (h : List.Forall₂ Same items items') :
      Same (.arr items) (.arr items')
  | obj {fields fields' : List (String × Json)}
      (h : ∀ key, Option.Rel Same (fields.lookup key) (fields'.lookup key)) :
      Same (.obj fields) (.obj fields')

/-- No object has a key twice. -/
inductive Distinct : Json → Prop
  | null : Distinct .null
  | bool (b : Bool) : Distinct (.bool b)
  | num (n : Number) : Distinct (.num n)
  | str (s : String) : Distinct (.str s)
  | arr {items : List Json} (h : ∀ v ∈ items, Distinct v) : Distinct (.arr items)
  | obj {fields : List (String × Json)} (hnodup : (fields.map Prod.fst).Nodup)
      (h : ∀ field ∈ fields, Distinct field.2) : Distinct (.obj fields)

/-- A value without floats, and with at most `depth` arrays and objects around each other. -/
inductive Integral : ℕ → Json → Prop
  | null {depth : ℕ} : Integral depth .null
  | bool {depth : ℕ} (b : Bool) : Integral depth (.bool b)
  | posInt {depth : ℕ} (n : Fin (2 ^ 64)) : Integral depth (.num (.posInt n))
  | negInt {depth : ℕ} (n : Fin (2 ^ 63)) : Integral depth (.num (.negInt n))
  | str {depth : ℕ} (s : String) : Integral depth (.str s)
  | arr {depth : ℕ} {items : List Json} (h : ∀ v ∈ items, Integral depth v) :
      Integral (depth + 1) (.arr items)
  | obj {depth : ℕ} {fields : List (String × Json)} (h : ∀ field ∈ fields, Integral depth field.2) :
      Integral (depth + 1) (.obj fields)

/-- What the parser and `Value::to_string` promise: a parsed object has no key twice, and a value
without floats, nested at most 127 deep, is read back. -/
structure Faithful (serde : Serde) (toStr : Json → String) : Prop where
  distinct : ∀ s v, serde.fromStr s = some v → v.Distinct
  read_back : ∀ v : Json, v.Distinct → v.Integral 127 →
    ∃ v', serde.fromStr (toStr v) = some v' ∧ v.Same v'

/-! ### Fields -/

variable {fields fields' : List (String × Json)} {key : String} {v : Json}

lemma lookup_cons_of_ne {other : String} (h : key ≠ other) :
    ((other, v) :: fields).lookup key = fields.lookup key := by
  rw [List.lookup_cons, beq_eq_false_iff_ne.mpr h]

lemma lookup_of_mem (hnodup : (fields.map Prod.fst).Nodup) (h : (key, v) ∈ fields) :
    fields.lookup key = some v := by
  induction fields with
  | nil => cases h
  | cons field fields ih =>
    obtain ⟨other, v'⟩ := field
    rw [List.map_cons, List.nodup_cons] at hnodup
    rcases List.mem_cons.mp h with heq | hmem
    · cases heq
      exact List.lookup_cons_self
    · have hne : key ≠ other := by
        rintro rfl
        exact hnodup.1 (List.mem_map.mpr ⟨_, hmem, rfl⟩)
      rw [lookup_cons_of_ne hne, ih hnodup.2 hmem]

lemma mem_of_lookup (h : fields.lookup key = some v) : (key, v) ∈ fields := by
  obtain ⟨before, after, rfl, -⟩ := List.lookup_eq_some_iff.mp h
  simp

/-- A filter by keys. -/
lemma lookup_filter (p : String → Prop) [DecidablePred p] :
    (fields.filter fun field => p field.1).lookup key =
      if p key then fields.lookup key else none := by
  induction fields with
  | nil => simp
  | cons field fields ih =>
    obtain ⟨other, v⟩ := field
    by_cases hother : p other
    · rw [List.filter_cons_of_pos (by simpa using hother)]
      by_cases hkey : key = other
      · subst hkey
        simp [hother]
      · rw [lookup_cons_of_ne hkey, lookup_cons_of_ne hkey, ih]
    · rw [List.filter_cons_of_neg (by simpa using hother), ih]
      split_ifs with hp
      · have hne : key ≠ other := by
          rintro rfl
          exact hother hp
        rw [lookup_cons_of_ne hne]
      · rfl

lemma exists_lookup_of_mem (h : key ∈ fields.map Prod.fst) : ∃ v, fields.lookup key = some v := by
  obtain ⟨⟨_, v⟩, hmem, rfl⟩ := List.mem_map.mp h
  rw [← Option.isSome_iff_exists, List.lookup_isSome_iff]
  exact ⟨_, hmem, by simp⟩

lemma mem_keys_of_lookup (h : fields.lookup key = some v) : key ∈ fields.map Prod.fst :=
  List.mem_map.mpr ⟨_, mem_of_lookup h, rfl⟩

/-! ### The same value -/

lemma Same.lookup (h : Same (.obj fields) (.obj fields')) (key : String) :
    Option.Rel Same (fields.lookup key) (fields'.lookup key) := by
  cases h with
  | obj h => exact h key

lemma Same.mem_keys (h : Same (.obj fields) (.obj fields')) (hkey : key ∈ fields'.map Prod.fst) :
    key ∈ fields.map Prod.fst := by
  obtain ⟨v', hv'⟩ := exists_lookup_of_mem hkey
  have hrel := h.lookup key
  rw [hv'] at hrel
  cases hv : fields.lookup key with
  | none =>
    rw [hv] at hrel
    cases hrel
  | some v => exact mem_keys_of_lookup hv

lemma Same.lookup_none (h : Same (.obj fields) (.obj fields')) (hnone : fields.lookup key = none) :
    fields'.lookup key = none := by
  have hrel := h.lookup key
  rw [hnone] at hrel
  generalize fields'.lookup key = o at hrel
  cases hrel
  rfl

lemma Same.lookup_some (h : Same (.obj fields) (.obj fields'))
    (hsome : fields.lookup key = some v) :
    ∃ v', fields'.lookup key = some v' ∧ v.Same v' := by
  have hrel := h.lookup key
  rw [hsome] at hrel
  generalize fields'.lookup key = o at hrel
  cases hrel with
  | some h => exact ⟨_, rfl, h⟩

lemma Same.lookup_str {s : String} (h : Same (.obj fields) (.obj fields'))
    (hstr : fields.lookup key = some (.str s)) : fields'.lookup key = some (.str s) := by
  obtain ⟨v', hv', hsame⟩ := h.lookup_some hstr
  cases hsame
  exact hv'

end Suwappu.Near.Json
