import Ariel.Query.Error
import Ariel.Text.Blank
import Ariel.Text.Joined
import Ariel.Text.Numeral

/-!
# Ready-made conditions

Predicates on common fields, made from one typed value. The value is trimmed and inserted as it
stands.
-/

namespace Ariel.Query.Condition

open Ariel.Text

/-- The comparison operators on numbers. -/
def numericOperators : List String := ["=", "!=", "<", ">", "<=", ">="]

/-- An address field equals an address, or lies in a network when the value has a slash. -/
def address (field value : String) : String :=
  let value := trim value
  if value.toList.contains '/' then "INCIDR('" ++ value ++ "', " ++ field ++ ")"
  else field ++ " = '" ++ value ++ "'"

/-- The source address equals an address or lies in a network. -/
def sourceAddress (value : String) : String :=
  address "sourceip" value

/-- The destination address equals an address or lies in a network. -/
def destinationAddress (value : String) : String :=
  address "destinationip" value

/-- The user name equals a name, or matches it when it has a `%`. -/
def username (value : String) : String :=
  let value := trim value
  if value.toList.contains '%' then "username ILIKE '" ++ value ++ "'"
  else "username = '" ++ value ++ "'"

/-- The magnitude, on its scale from 1 to 10, compares to a number. -/
def magnitude (operator : String) (value : UInt8) : Except QueryError String :=
  let operator := trim operator
  if !numericOperators.contains operator then
    .error (.invalidCondition
      ("operator '" ++ operator ++ "' is not one of " ++ join " " numericOperators))
  else if value.toNat < 1 || 10 < value.toNat then
    .error (.invalidCondition
      ("magnitude must be between 1 and 10, got " ++ decimal value.toNat))
  else .ok ("magnitude " ++ operator ++ " " ++ decimal value.toNat)

/-- The log source name contains a text. -/
def logSource (value : String) : String :=
  "LOGSOURCENAME(logsourceid) ILIKE '%" ++ trim value ++ "%'"

/-- The event name contains a text. -/
def eventName (value : String) : String :=
  "QIDNAME(qid) ILIKE '%" ++ trim value ++ "%'"

end Ariel.Query.Condition
