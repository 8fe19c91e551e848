import Suwappu.Lib.JsJsonRoundTrip

/-!
# Canonical text

`canonicalize` gives a JSON value the text that `JSON.stringify` gives it with its keys in order. Of
the other values, it refuses the ones that have no text, and drops fields that are undefined.
-/

namespace Suwappu.Seal

open Doubles JsJson

def unsupported (type : String) : Except String (List Char) :=
  .error ("canonicalize: unsupported value of type " ++ type)

mutual

def canonicalize : Value → Except String (List Char)
  | .null       => .ok ['n', 'u', 'l', 'l']
  | .str s      => .ok (quote s)
  | .bool true  => .ok ['t', 'r', 'u', 'e']
  | .bool false => .ok ['f', 'a', 'l', 's', 'e']
  | .num x      => .ok (numberToString x.value)
  | .nonFinite  => .error "canonicalize: non-finite number cannot be sealed"
  | .bigint z   => .ok (quote ((JsonText.renderInt z).flatMap fun c => units c.toNat))
  | .undefined  => unsupported "undefined"
  | .callable   => unsupported "function"
  | .symbol     => unsupported "symbol"
  | .arr items  => do
    let texts ← canonicalizeItems items
    return '[' :: (commas texts ++ [']'])
  | .obj fields => do
    let parts ← (Canonical.sorted byKey (canonicalizeFields fields)).mapM fun (key, text) => do
      return field key (← text)
    return '{' :: (commas parts ++ ['}'])

def canonicalizeItems : List Value → Except String (List (List Char))
  | []                  => .ok []
  | .undefined :: items => do
    let texts ← canonicalizeItems items
    return ['n', 'u', 'l', 'l'] :: texts
  | v :: items          => do
    let text ← canonicalize v
    let texts ← canonicalizeItems items
    return text :: texts

/-- The text of each field. The first error in the order of the keys is the one thrown. -/
def canonicalizeFields : List (JsString × Value) → List (JsString × Except String (List Char))
  | []                        => []
  | (_, .undefined) :: fields => canonicalizeFields fields
  | (key, v) :: fields        => (key, canonicalize v) :: canonicalizeFields fields

end

lemma canonicalizeFields_append (before after : List (JsString × Value)) :
    canonicalizeFields (before ++ after) =
      canonicalizeFields before ++ canonicalizeFields after := by
  induction before with
  | nil => rfl
  | cons field before ih =>
    obtain ⟨key, v⟩ := field
    cases v with
    | undefined => exact ih
    | _ => exact congrArg (List.cons _) ih

/-- A field that is undefined leaves no trace. -/
theorem canonicalize_undefined (before after : List (JsString × Value)) (key : JsString) :
    canonicalize (.obj (before ++ (key, .undefined) :: after)) =
      canonicalize (.obj (before ++ after)) := by
  rw [canonicalize, canonicalize, canonicalizeFields_append, canonicalizeFields_append]
  rfl

section Json

variable {x y : Json} {items : List Json} {fields : List (JsString × Json)}

lemma toValue_ne_undefined (x : Json) : x.toValue ≠ .undefined := by
  cases x <;> exact fun h => by cases h

lemma canonicalizeItems_cons {v : Value} (h : v ≠ .undefined) (items : List Value) :
    canonicalizeItems (v :: items) = (do
      let text ← canonicalize v
      let texts ← canonicalizeItems items
      return text :: texts) := by
  cases v with
  | undefined => exact absurd rfl h
  | _ => rfl

lemma canonicalizeFields_cons {v : Value} (h : v ≠ .undefined) (key : JsString)
    (fields : List (JsString × Value)) :
    canonicalizeFields ((key, v) :: fields) =
      (key, canonicalize v) :: canonicalizeFields fields := by
  cases v with
  | undefined => exact absurd rfl h
  | _ => rfl

lemma canonicalizeItems_toValues
    (h : ∀ x ∈ items, canonicalize x.toValue = .ok (stringify (normalize x))) :
    canonicalizeItems (toValues items) = .ok (stringifyItems (normalizeItems items)) := by
  induction items with
  | nil => rfl
  | cons x items ih =>
    obtain ⟨hx, hitems⟩ := List.forall_mem_cons.mp h
    rw [toValues, canonicalizeItems_cons (toValue_ne_undefined x), hx, ih hitems]
    rfl

/-- A field with its text. -/
def fieldText (field : JsString × Json) : JsString × Except String (List Char) :=
  (field.1, .ok (stringify field.2))

lemma canonicalizeFields_toFields
    (h : ∀ field ∈ fields, canonicalize field.2.toValue = .ok (stringify (normalize field.2))) :
    canonicalizeFields (toFields fields) = (normalizeFields fields).map fieldText := by
  induction fields with
  | nil => rfl
  | cons field fields ih =>
    obtain ⟨key, x⟩ := field
    obtain ⟨hx, hfields⟩ := List.forall_mem_cons.mp h
    rw [toFields, canonicalizeFields_cons (toValue_ne_undefined x), hx, ih hfields]
    rfl

lemma mapM_fieldText (fields : List (JsString × Json)) :
    ((fields.map fieldText).mapM fun (key, text) => do return field key (← text)) =
      .ok (stringifyFields fields) := by
  induction fields with
  | nil => rfl
  | cons field fields ih =>
    obtain ⟨key, x⟩ := field
    rw [List.map_cons, List.mapM_cons, ih]
    rfl

lemma sorted_map_fieldText (fields : List (JsString × Json)) :
    Canonical.sorted byKey (fields.map fieldText) =
      (Canonical.sorted byKey fields).map fieldText := by
  unfold Canonical.sorted
  rw [List.map_mergeSort]
  exact fun a ha b hb => rfl

/-- The text of a JSON value with its keys in order. -/
theorem canonicalize_toValue (h : DistinctKeys x) :
    canonicalize x.toValue = .ok (stringify (normalize x)) := by
  induction h with
  | null => rfl
  | bool b => cases b <;> rfl
  | num x => rfl
  | str s => rfl
  | arr h ih =>
    rw [Json.toValue, canonicalize, canonicalizeItems_toValues ih]
    rfl
  | obj hkeys h ih =>
    rw [Json.toValue, canonicalize, canonicalizeFields_toFields ih, sorted_map_fieldText,
      mapM_fieldText]
    rfl

end Json

end Suwappu.Seal
