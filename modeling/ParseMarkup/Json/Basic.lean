/-!
# JSON values

The data that trees and locations are stored as. Members of an object keep the order in which
they stand, and integers are exact; a number with a fraction or an exponent is kept as it was
spelled, since nothing here computes with it.
-/

namespace ParseMarkup

/-- A JSON value. -/
inductive Json where
  | null
  | bool (b : Bool)
  /-- A number without fraction and exponent. -/
  | int (i : Int)
  /-- Any other number, by its spelling. -/
  | decimal (lexeme : String)
  | str (s : String)
  | arr (items : List Json)
  | obj (members : List (String × Json))
  deriving Inhabited

namespace Json

/-- The value of the first member with the name `key`. -/
def member? (key : String) : List (String × Json) → Option Json
  | [] => none
  | (name, value) :: rest => if name = key then some value else member? key rest

/-- The values of the members with the name `key`, in order. -/
def values (key : String) (members : List (String × Json)) : List Json :=
  (members.filter fun m => m.1 = key).map Prod.snd

/-- Whether no two members have the same of the names `keys`. -/
def distinct (keys : List String) (members : List (String × Json)) : Bool :=
  keys.all fun key => (values key members).length ≤ 1

/-- The value of the member `key`, if this is an object that has one. -/
def get? (key : String) : Json → Option Json
  | obj members => member? key members
  | _ => none

/-- The value of the member `key`, unless it is missing or `null`. -/
def present? (key : String) (j : Json) : Option Json :=
  match j.get? key with
  | none => none
  | some null => none
  | some value => some value

end Json

end ParseMarkup
