import Mathlib.Algebra.Group.Int.Defs
import Mathlib.Data.List.Basic
import Mathlib.Tactic.Cases

/-!
# JSON values

Parsed JSON, with the accessors of `serde_json::Value` that the wallet uses. An accessor of another
kind of value returns nothing, as the source's does: what a server leaves out and what it writes
with the wrong type are the same to a caller.
-/

namespace Swk

/-- `serde_json::Value`. Of a number, whether it is an integer, and which; the keys of an object are
distinct. -/
inductive Json
  | null
  | bool (b : Bool)
  | int (n : Int)
  | float (bits : UInt64)
  | str (s : String)
  | arr (l : List Json)
  | obj (l : List (String × Json))

namespace Json

/-- `Value::get`, with a key. -/
def get (j : Json) (key : String) : Option Json :=
  match j with
  | .obj l => l.lookup key
  | _ => none

def asBool : Json → Option Bool
  | .bool b => some b
  | _ => none

def asU64 : Json → Option UInt64
  | .int n => if 0 ≤ n ∧ n < 2 ^ 64 then some (.ofNat n.toNat) else none
  | _ => none

def asI64 : Json → Option Int64
  | .int n => if -2 ^ 63 ≤ n ∧ n < 2 ^ 63 then some (.ofInt n) else none
  | _ => none

def asStr : Json → Option String
  | .str s => some s
  | _ => none

def asArray : Json → Option (List Json)
  | .arr l => some l
  | _ => none

end Json

end Swk
