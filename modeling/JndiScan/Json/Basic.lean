/-
JSON values whose objects keep the order of their fields. Texts may hold halves of surrogate pairs.
A number with a fraction or an exponent is kept as its digits and a power of ten.
-/
import JndiScan.Text.Basic

namespace JndiScan

/-- A JSON value. -/
inductive Json
  | null
  | bool (b : Bool)
  | int (i : Int)
  | decimal (negative : Bool) (digits : Nat) (exponent : Int)
  | text (t : Text)
  | list (items : List Json)
  | object (fields : List (Text × Json))
  deriving Repr, BEq

namespace Json

instance : Inhabited Json := ⟨null⟩

instance : Coe Text Json := ⟨text⟩

/-- The value of a field; of two fields with one name the later counts. -/
def field? (key : Text) : Json → Option Json
  | object fields => (fields.reverse.find? fun f => f.1 = key).map (·.2)
  | _ => none

end Json

end JndiScan
