import Ariel.Json.Parser

/-!
# Reading records from tokens

A record can be read from its tokens in one pass, every field by a reader of its own. The first
fault on the way is the one that counts: text that is no JSON, or a value that does not fit.
-/

namespace Ariel.Json

/-- Why a value cannot be read. -/
inductive ReadFault where
  | malformed
  | misfit
  deriving DecidableEq, Repr

/-- What takes a value from the front of a list of tokens. -/
abbrev Reader (α : Type) := List Token → Except ReadFault (α × List Token)

namespace Reader

/-- What is wrong with tokens that do not begin with the type of value asked for: another type of
value does not fit, and anything else is no value. -/
def faultAt : List Token → ReadFault
  | .null :: _ | .bool _ :: _ | .number (some _) :: _ | .string (some _) :: _ => .misfit
  | .openArray :: _ | .openObject :: _ => .misfit
  | _ => .malformed

/-- Read a text. -/
def text : Reader String
  | .string (some s) :: rest => .ok (s, rest)
  | tokens => .error (faultAt tokens)

/-- Read a natural number below a bound. -/
def natBelow (bound : Nat) : Reader Nat
  | .number (some (.integer (.ofNat n))) :: rest =>
      if n < bound then .ok (n, rest) else .error .misfit
  | tokens => .error (faultAt tokens)

/-- Read a value that may be null. -/
def nullable {α : Type} (reader : Reader α) : Reader (Option α)
  | .null :: rest => .ok (none, rest)
  | tokens => do
      let (value, rest) ← reader tokens
      pure (some value, rest)

/-- Read one word of a choice. It may also be the only name of an object, in front of a null. -/
def word {α : Type} (choice : String → Option α) : Reader α
  | .string (some s) :: rest =>
      match choice s with
      | some value => .ok (value, rest)
      | none => .error .misfit
  | .openObject :: tokens => do
      let (s, rest) ← text tokens
      match choice s, rest with
      | none, _ => throw .misfit
      | some value, .colon :: .null :: .closeObject :: rest => pure (value, rest)
      | some _, .colon :: .null :: _ => throw .malformed
      | some _, .colon :: rest => throw (faultAt rest)
      | some _, _ => throw .malformed
  | _ => .error .malformed

/-- Read the items of an array up to its end, at least one. -/
def items {α : Type} (reader : Reader α) : (fuel : Nat) → Reader (List α)
  | 0, _ => .error .malformed
  | fuel + 1, tokens => do
      let (item, rest) ← reader tokens
      match rest with
      | .comma :: rest =>
          let (others, rest) ← items reader fuel rest
          pure (item :: others, rest)
      | .closeArray :: rest => pure ([item], rest)
      | _ => throw .malformed

/-- Read an array. -/
def array {α : Type} (reader : Reader α) : Reader (List α)
  | .openArray :: .closeArray :: rest => .ok ([], rest)
  | .openArray :: rest => items reader (rest.length + 1) rest
  | tokens => .error (faultAt tokens)

/-- Put a member into a map, in the place of an earlier one with the same name. -/
def put {α : Type} (name : String) (value : α) : List (String × α) → List (String × α)
  | [] => [(name, value)]
  | (other, otherValue) :: members =>
      if other = name then (name, value) :: members
      else (other, otherValue) :: put name value members

/-- Read the members of a map up to its end, at least one, into those that are known. -/
def entries {α : Type} (reader : Reader α) (known : List (String × α)) :
    (fuel : Nat) → Reader (List (String × α))
  | 0, _ => .error .malformed
  | fuel + 1, .string (some name) :: .colon :: rest => do
      let (value, rest) ← reader rest
      match rest with
      | .comma :: rest => entries reader (put name value known) fuel rest
      | .closeObject :: rest => pure (put name value known, rest)
      | _ => throw .malformed
  | _, _ => .error .malformed

/-- Read a map. Of two members with one name the later one counts. -/
def map {α : Type} (reader : Reader α) : Reader (List (String × α))
  | .openObject :: .closeObject :: rest => .ok ([], rest)
  | .openObject :: rest => entries reader [] (rest.length + 1) rest
  | tokens => .error (faultAt tokens)

/-- Read a tag: a text, and one of some words. -/
def tagWord (words : List String) : Reader String := fun tokens => do
  let (s, rest) ← text tokens
  if words.contains s then pure (s, rest) else throw .misfit

/-- Read the members of an object up to its end, at least one. The member with the tag's name is
read at once as a tag, and must not come twice. -/
def taggedMembers (tag : String) (words : List String) (depth : Nat) :
    (fuel : Nat) → (seen : Bool) → Reader (List (String × Json))
  | 0, _, _ => .error .malformed
  | fuel + 1, seen, .string (some name) :: rest => do
      if name == tag && seen then throw .misfit
      let (value, rest) ← match rest with
        | .colon :: rest =>
            if name == tag then do
              let (s, rest) ← tagWord words rest
              pure (Json.string s, rest)
            else match valueOf? rest depth with
              | some found => pure found
              | none => throw .malformed
        | _ => throw .malformed
      match rest with
      | .comma :: rest =>
          let (members, rest) ← taggedMembers tag words depth fuel (seen || name == tag) rest
          pure ((name, value) :: members, rest)
      | .closeObject :: rest => pure ([(name, value)], rest)
      | _ => throw .malformed
  | _, _, _ => .error .malformed

/-- Read a value that is told apart by a tag: an object with a member of that name, or an array that
begins with the tag. What it holds besides is examined at its end. -/
def tagged {α : Type} (tag : String) (words : List String) (depth : Nat)
    (decode : Json → Option α) : Reader α := fun tokens => do
  let (value, rest) ← match tokens with
    | .openObject :: .closeObject :: rest => pure (Json.object [], rest)
    | .openObject :: rest => do
        let (members, rest) ← taggedMembers tag words depth (rest.length + 1) false rest
        pure (Json.object members, rest)
    | .openArray :: .closeArray :: _ => throw .misfit
    | .openArray :: rest => do
        let _ ← tagWord words rest
        match valueOf? tokens (depth + 1) with
        | some found => pure found
        | none => throw .malformed
    | tokens => throw (faultAt tokens)
  match decode value with
  | some value => pure (value, rest)
  | none => throw .misfit

/-- A field of a record: the names it goes by, and the reader of what its value changes. -/
structure RecordField (ρ : Type) where
  names : List String
  change : Reader (ρ → ρ)

/-- A field that is set to what its reader takes. -/
def field {ρ α : Type} (names : List String) (reader : Reader α) (set : ρ → α → ρ) :
    RecordField ρ where
  names := names
  change tokens := do
    let (value, rest) ← reader tokens
    pure (fun record => set record value, rest)

/-- Read the members of a record up to its end, at least one. Members that no field goes by are
passed over, and a field must not come twice, under whatever names. -/
def recordMembers {ρ : Type} (fields : List (RecordField ρ)) :
    (fuel : Nat) → (seen : List String) → ρ → Reader ρ
  | 0, _, _, _ => .error .malformed
  | fuel + 1, seen, record, .string (some name) :: rest => do
      let found := fields.find? fun f => f.names.contains name
      let names := (found.map RecordField.names).getD []
      if names.any seen.contains then throw .misfit
      let (record, rest) ← match rest, found with
        | .colon :: rest, some f => do
            let (change, rest) ← f.change rest
            pure (change record, rest)
        | .colon :: rest, none =>
            match skip? rest with
            | some rest => pure (record, rest)
            | none => throw .malformed
        | _, _ => throw .malformed
      match rest with
      | .comma :: rest => recordMembers fields fuel (names ++ seen) record rest
      | .closeObject :: rest => pure (record, rest)
      | _ => throw .malformed
  | _, _, _, _ => .error .malformed

/-- Read the fields of a record in their order, from an array. -/
def recordItems {ρ : Type} : List (RecordField ρ) → ρ → Reader ρ
  | [], _ => fun _ => .error .malformed
  | f :: fields, record => fun tokens => do
      let (change, rest) ← f.change tokens
      match rest with
      | .comma :: rest => recordItems fields (change record) rest
      | .closeArray :: rest => pure (change record, rest)
      | _ => throw .malformed

/-- Read a record from an object of named fields, or from the array of its fields in order. A field
that is left out keeps what it is in the record given. -/
def record {ρ : Type} (fields : List (RecordField ρ)) (initial : ρ) : Reader ρ
  | .openObject :: .closeObject :: rest => .ok (initial, rest)
  | .openObject :: rest => recordMembers fields (rest.length + 1) [] initial rest
  | .openArray :: .closeArray :: rest => .ok (initial, rest)
  | .openArray :: rest => recordItems fields initial rest
  | tokens => .error (faultAt tokens)

end Reader

end Ariel.Json
