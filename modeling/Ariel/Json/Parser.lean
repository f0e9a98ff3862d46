import Ariel.Json.Token

/-!
# Reading JSON values

Values are read from a list of tokens. A reading may be strict, which builds the value and bounds
its nesting, or may pass over a value that nobody asks for.
-/

namespace Ariel.Json

/-- How deeply arrays and objects may be nested in a value that is read. -/
def nestingLimit : Nat := 127

mutual

/-- Read one value, nested at most `depth` deep. -/
def value? : (fuel depth : Nat) → List Token → Option (Json × List Token)
  | 0, _, _ => none
  | fuel + 1, depth, tokens =>
      match tokens with
      | .null :: rest => some (.null, rest)
      | .bool value :: rest => some (.bool value, rest)
      | .number (some value) :: rest => some (value, rest)
      | .string (some value) :: rest => some (.string value, rest)
      | .openArray :: rest =>
          match depth with
          | 0 => none
          | depth + 1 =>
              match rest with
              | .closeArray :: rest => some (.array [], rest)
              | rest => (items? fuel depth rest).map fun (items, rest) => (.array items, rest)
      | .openObject :: rest =>
          match depth with
          | 0 => none
          | depth + 1 =>
              match rest with
              | .closeObject :: rest => some (.object [], rest)
              | rest =>
                  (members? fuel depth rest).map fun (members, rest) => (.object members, rest)
      | _ => none

/-- Read the items of an array up to its end, at least one. -/
def items? : (fuel depth : Nat) → List Token → Option (List Json × List Token)
  | 0, _, _ => none
  | fuel + 1, depth, tokens =>
      match value? fuel depth tokens with
      | some (item, .comma :: rest) =>
          (items? fuel depth rest).map fun (items, rest) => (item :: items, rest)
      | some (item, .closeArray :: rest) => some ([item], rest)
      | _ => none

/-- Read the members of an object up to its end, at least one. -/
def members? : (fuel depth : Nat) → List Token → Option (List (String × Json) × List Token)
  | 0, _, _ => none
  | fuel + 1, depth, tokens =>
      match tokens with
      | .string (some name) :: .colon :: rest =>
          match value? fuel depth rest with
          | some (value, .comma :: rest) =>
              (members? fuel depth rest).map fun (members, rest) =>
                ((name, value) :: members, rest)
          | some (value, .closeObject :: rest) => some ([(name, value)], rest)
          | _ => none
      | _ => none

end

/-- Read one value from the front of a list of tokens. A value of `n` tokens needs a bound of at
most `2 n`. -/
def valueOf? (tokens : List Token) (depth : Nat) : Option (Json × List Token) :=
  value? (2 * tokens.length + 1) depth tokens

/-- Make every token usable, since what a passed-over string or number says does not matter. -/
def Token.blanked : Token → Token
  | .string _ => .string (some "")
  | .number _ => .number (some .null)
  | token => token

/-- Pass over one value, which only has to be well-formed. -/
def skip? (tokens : List Token) : Option (List Token) :=
  match valueOf? (tokens.map Token.blanked) tokens.length with
  | none => none
  | some (_, rest) => some (tokens.drop (tokens.length - rest.length))

/-- Read a whole text as one value. -/
def parse? (s : String) : Option Json :=
  match valueOf? (tokens s.toList) nestingLimit with
  | some (value, []) => some value
  | _ => none

end Ariel.Json
