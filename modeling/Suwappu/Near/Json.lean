import Suwappu.Lib.Checked

/-!
# JSON values

What the contracts read of `serde_json::Value`. The parser itself is not part of the repository and
stays a parameter.
-/

namespace Suwappu.Near

/-- A JSON number: an integer in the range of `u64` or `i64`, or anything else. -/
inductive Number where
  | posInt (n : Fin (2 ^ 64))
  | negInt (n : Fin (2 ^ 63))
  | float (text : String)
deriving DecidableEq

inductive Json where
  | null
  | bool (b : Bool)
  | num (n : Number)
  | str (s : String)
  | arr (items : List Json)
  | obj (fields : List (String × Json))

/-- `serde_json::from_str` and `serde_json::from_slice`. -/
structure Serde where
  fromStr : String → Option Json
  fromSlice : List UInt8 → Option Json

namespace Json

def asStr : Json → Option String
  | .str s => some s
  | _      => none

def asU64 : Json → Option ℕ
  | .num (.posInt n) => some n.val
  | _                => none

def asObject : Json → Option (List (String × Json))
  | .obj fields => some fields
  | _           => none

/-- `value.get(key)` -/
def get? (v : Json) (key : String) : Option Json :=
  match v with
  | .obj fields => fields.lookup key
  | _           => none

/-- `value[key]`, which is `null` when there is no such key. -/
def get (v : Json) (key : String) : Json := (v.get? key).getD .null

end Json

end Suwappu.Near
