import Suwappu.Lib.JsonRoundTrip
import Suwappu.Near.JsonValues

/-!
# A parser of values

The values of JSON texts, where the last of several fields with one key counts. Its text of a value
is read back as `Faithful` asks.
-/

namespace Suwappu.Near.Json

open JsonText

/-! ### Text -/

def numberTree : Number → Tree
  | .posInt n   => .int n.val
  | .negInt n   => .int (-(n.val : ℤ) - 1)
  | .float text => .float text.toList

mutual

def toTree : Json → Tree
  | .null       => .null
  | .bool b     => .bool b
  | .num n      => numberTree n
  | .str s      => .str s
  | .arr items  => .arr (toItems items)
  | .obj fields => .obj (toFields fields)

def toItems : List Json → List Tree
  | []         => []
  | v :: items => toTree v :: toItems items

def toFields : List (String × Json) → List (String × Tree)
  | []                 => []
  | (key, v) :: fields => (key, toTree v) :: toFields fields

end

/-- The number of an integer that fits a word. -/
def intNumber (z : ℤ) : Number :=
  if 0 ≤ z then .posInt (Fin.ofNat _ z.toNat) else .negInt (Fin.ofNat _ (-z - 1).toNat)

/-- A field before others, unless its key comes again. -/
def consField (key : String) (v : Json) (fields : List (String × Json)) : List (String × Json) :=
  if key ∈ fields.map Prod.fst then fields else (key, v) :: fields

mutual

def ofTree : Tree → Json
  | .null       => .null
  | .bool b     => .bool b
  | .int z      => .num (intNumber z)
  | .float text => .num (.float (String.ofList text))
  | .str s      => .str s
  | .arr items  => .arr (ofItems items)
  | .obj fields => .obj (ofFields fields)

def ofItems : List Tree → List Json
  | []         => []
  | t :: items => ofTree t :: ofItems items

def ofFields : List (String × Tree) → List (String × Json)
  | []                 => []
  | (key, t) :: fields => consField key (ofTree t) (ofFields fields)

end

/-- The parser, with its limit of 127 nested values. -/
def textSerde : Serde where
  fromStr s := (parse 127 s.toList).map ofTree
  fromSlice bytes := do
    let s ← String.fromUTF8? ⟨bytes.toArray⟩
    (parse 127 s.toList).map ofTree

/-- `Value::to_string` -/
def toText (v : Json) : String := String.ofList (render (toTree v))

/-! ### Distinct keys -/

mutual

lemma ofTree_distinct : ∀ t, (ofTree t).Distinct
  | .null       => .null
  | .bool b     => .bool b
  | .int _      => .num _
  | .float _    => .num _
  | .str s      => .str s
  | .arr items  => .arr (ofItems_distinct items)
  | .obj fields => .obj (ofFields_distinct fields).1 (ofFields_distinct fields).2

lemma ofItems_distinct : ∀ items, ∀ v ∈ ofItems items, v.Distinct
  | []         => fun _ hv => absurd hv List.not_mem_nil
  | t :: items => List.forall_mem_cons.mpr ⟨ofTree_distinct t, ofItems_distinct items⟩

lemma ofFields_distinct : ∀ fields, ((ofFields fields).map Prod.fst).Nodup ∧
    ∀ field ∈ ofFields fields, field.2.Distinct
  | []                 => ⟨List.nodup_nil, fun _ hf => absurd hf List.not_mem_nil⟩
  | (key, t) :: fields => by
    obtain ⟨hnodup, hdistinct⟩ := ofFields_distinct fields
    rw [ofFields, consField]
    split_ifs with hkey
    · exact ⟨hnodup, hdistinct⟩
    · exact ⟨List.nodup_cons.mpr ⟨hkey, hnodup⟩,
        List.forall_mem_cons.mpr ⟨ofTree_distinct t, hdistinct⟩⟩

end

/-! ### What is read back -/

variable {v : Json} {depth : ℕ}

lemma toItems_eq_map (items : List Json) : toItems items = items.map toTree := by
  induction items with
  | nil => rfl
  | cons v items ih => rw [toItems, ih, List.map_cons]

lemma toFields_eq_map (fields : List (String × Json)) :
    toFields fields = fields.map fun field => (field.1, toTree field.2) := by
  induction fields with
  | nil => rfl
  | cons field fields ih => rw [toFields, ih, List.map_cons]

lemma Integral.plain (h : v.Integral depth) : Plain depth (toTree v) := by
  induction h with
  | null => exact .null
  | bool b => exact .bool b
  | posInt n =>
    refine .of_lt ?_
    have hn := n.isLt
    omega
  | negInt n =>
    refine .of_lt ?_
    have hn := n.isLt
    omega
  | str s => exact .str s
  | arr h ih =>
    rw [toTree, toItems_eq_map]
    exact .arr (List.forall_mem_map.mpr ih)
  | obj h ih =>
    rw [toTree, toFields_eq_map]
    exact .obj (List.forall_mem_map.mpr ih)

lemma intNumber_posInt (n : Fin (2 ^ 64)) : intNumber n.val = .posInt n := by
  rw [intNumber, if_pos (Int.natCast_nonneg _), Int.toNat_natCast]
  simp

lemma intNumber_negInt (n : Fin (2 ^ 63)) : intNumber (-(n.val : ℤ) - 1) = .negInt n := by
  have hvalue : (-(-(n.val : ℤ) - 1) - 1).toNat = n.val := by omega
  rw [intNumber, if_neg (by omega), hvalue]
  simp

lemma ofItems_narrow {items : List Json} (h : ∀ v ∈ items, ofTree (narrow (toTree v)) = v) :
    ofItems (narrowItems (toItems items)) = items := by
  induction items with
  | nil => rfl
  | cons v items ih =>
    rw [List.forall_mem_cons] at h
    rw [toItems, narrowItems, ofItems, h.1, ih h.2]

lemma ofFields_narrow {fields : List (String × Json)} (hnodup : (fields.map Prod.fst).Nodup)
    (h : ∀ field ∈ fields, ofTree (narrow (toTree field.2)) = field.2) :
    ofFields (narrowFields (toFields fields)) = fields := by
  induction fields with
  | nil => rfl
  | cons field fields ih =>
    obtain ⟨key, v⟩ := field
    rw [List.forall_mem_cons] at h
    rw [List.map_cons, List.nodup_cons] at hnodup
    rw [toFields, narrowFields, ofFields, h.1, ih hnodup.2 h.2, consField, if_neg hnodup.1]

/-- A value is read back from its tree. -/
lemma Integral.ofTree_narrow (h : v.Integral depth) (hdistinct : v.Distinct) :
    ofTree (narrow (toTree v)) = v := by
  induction h with
  | null => rfl
  | bool b => rfl
  | posInt n =>
    have hfits : Fits n.val := ⟨by omega, by omega⟩
    rw [toTree, numberTree, narrow, narrowInt, if_pos hfits, ofTree, intNumber_posInt]
  | negInt n =>
    have hfits : Fits (-(n.val : ℤ) - 1) := ⟨by omega, by omega⟩
    rw [toTree, numberTree, narrow, narrowInt, if_pos hfits, ofTree, intNumber_negInt]
  | str s => rfl
  | arr h ih =>
    cases hdistinct with
    | arr hitems =>
      rw [toTree, narrow, ofTree, ofItems_narrow fun v hv => ih v hv (hitems v hv)]
  | obj h ih =>
    cases hdistinct with
    | obj hnodup hfields =>
      rw [toTree, narrow, ofTree,
        ofFields_narrow hnodup fun field hf => ih field hf (hfields field hf)]

lemma Integral.same (h : v.Integral depth) : v.Same v := by
  induction h with
  | null => exact .null
  | bool b => exact .bool b
  | posInt n => exact .num _
  | negInt n => exact .num _
  | str s => exact .str s
  | arr h ih => exact .arr (List.forall₂_same.mpr ih)
  | obj h ih =>
    rename_i fields
    refine .obj fun key => ?_
    cases hv : fields.lookup key with
    | none => exact .none
    | some v => exact .some (ih _ (mem_of_lookup hv))

theorem textSerde_faithful : Faithful textSerde toText where
  distinct s v h := by
    obtain ⟨t, -, rfl⟩ := Option.map_eq_some_iff.mp h
    exact ofTree_distinct t
  read_back v hdistinct hintegral := by
    refine ⟨v, ?_, hintegral.same⟩
    have hfromStr : ∀ s, textSerde.fromStr s = (parse 127 s.toList).map ofTree := fun _ => rfl
    rw [hfromStr, toText, String.toList_ofList, parse_render hintegral.plain, Option.map_some,
      hintegral.ofTree_narrow hdistinct]

end Suwappu.Near.Json
