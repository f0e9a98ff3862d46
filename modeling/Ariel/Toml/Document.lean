import Ariel.Toml.Number

/-!
# TOML documents

A document is a list of lines: headers, which name the table that is filled from there on, and keys
with their values. A table may be extended only in the way in which it came to be, and nothing is
defined twice.
-/

namespace Ariel.Toml

/-- How deeply lists and tables in braces may be nested, and how many parts a key may have. -/
def nestingLimit : Nat := 79

/-- Read the parts of a dotted key, with gaps around them. -/
def keyParts? : (fuel : Nat) → List Char → Option (List String × List Char)
  | 0, _ => none
  | fuel + 1, cs => do
      let (name, rest) ← simpleKey? (skipGap cs)
      match skipGap rest with
      | '.' :: rest =>
          let (names, rest) ← keyParts? fuel rest
          pure (name :: names, rest)
      | rest => pure ([name], rest)

/-- Read a dotted key. -/
def key? (cs : List Char) : Option (List String × List Char) :=
  keyParts? nestingLimit cs

/-! ## Adding to tables -/

/-- Whether a dotted key or a header may go through a table, by how the table came to be. -/
def Origin.isOpen (dotted : Bool) : Origin → Bool
  | .braces => false
  | .header => !dotted
  | .implied | .dotted => true

/-- How a table came to be, and its members. -/
abbrev Contents := Origin × List (String × Toml)

/-- Change the table at a path. Tables that are missing on the way come to be, and of a list of
tables the last one is meant. -/
def within (dotted : Bool) (change : Contents → Option Contents) :
    List String → Contents → Option Contents
  | [], contents => change contents
  | name :: path, (origin, members) => do
      let value ← match members.lookup name with
        | none => do
            let fresh := if dotted then Origin.dotted else Origin.implied
            let (origin, members) ← within dotted change path (fresh, [])
            pure (Toml.table origin members)
        | some (.table origin members) => do
            if !origin.isOpen dotted then none
            let (origin, members) ← within dotted change path (origin, members)
            pure (Toml.table origin members)
        | some (.tables items) =>
            match items.getLast? with
            | some (.table origin members) => do
                let (origin, members) ← within dotted change path (origin, members)
                pure (Toml.tables (items.dropLast ++ [.table origin members]))
            | _ => none
        | some _ => none
      pure (origin, put name value members)

/-- Add a member to a table that has none of its name. -/
def addMember (name : String) (value : Toml) : Contents → Option Contents
  | (origin, members) =>
      match members.lookup name with
      | none => some (origin, members ++ [(name, value)])
      | some _ => none

/-- The parts of a path before the last one, and the last one. -/
def splitLast? (path : List String) : Option (List String × String) :=
  path.getLast?.map fun name => (path.dropLast, name)

/-- Add the value of a dotted key. The parts before the last one lead through tables, and the last
of these must come from dotted keys. -/
def addKey (path : List String) (value : Toml) (contents : Contents) : Option Contents := do
  match ← splitLast? path with
  | ([], name) => addMember name value contents
  | (parents, name) =>
      within true (fun contents =>
        if contents.1 = .dotted then addMember name value contents else none) parents contents

/-- Give a table a header of its own. -/
def openTable (path : List String) (contents : Contents) : Option Contents := do
  let (parents, name) ← splitLast? path
  within false (fun (origin, members) =>
    match members.lookup name with
    | none => some (origin, members ++ [(name, .table .header [])])
    | some (.table .implied inner) => some (origin, put name (.table .header inner) members)
    | some _ => none) parents contents

/-- Add a table to a list of tables. -/
def openItem (path : List String) (contents : Contents) : Option Contents := do
  let (parents, name) ← splitLast? path
  within false (fun (origin, members) =>
    match members.lookup name with
    | none => some (origin, members ++ [(name, .tables [.table .header []])])
    | some (.tables items) =>
        some (origin, put name (.tables (items ++ [.table .header []])) members)
    | some _ => none) parents contents

/-! ## Values -/

mutual

/-- Read one value, nested at most `depth` deep. -/
def value? : (fuel depth : Nat) → List Char → Option (Toml × List Char)
  | 0, _, _ => none
  | fuel + 1, depth, cs =>
      match cs with
      | '[' :: rest =>
          match depth with
          | 0 => none
          | depth + 1 =>
              (items? fuel depth (skipLayout false rest)).map fun (items, rest) =>
                (.array items, rest)
      | '\x7b' :: rest =>
          match depth with
          | 0 => none
          | depth + 1 =>
              match skipGap rest with
              | '\x7d' :: rest => some (.table .braces [], rest)
              | rest =>
                  (pairs? fuel depth (.braces, []) rest).map fun ((origin, members), rest) =>
                    (.table origin members, rest)
      | 't' :: 'r' :: 'u' :: 'e' :: rest => some (.bool true, rest)
      | 'f' :: 'a' :: 'l' :: 's' :: 'e' :: rest => some (.bool false, rest)
      | c :: _ =>
          if c = '"' || c = '\'' then
            (text? cs).map fun (text, rest) => (.string (String.ofList text), rest)
          else scalar? cs
      | [] => none

/-- Read the items of a list up to its end. -/
def items? : (fuel depth : Nat) → List Char → Option (List Toml × List Char)
  | 0, _, _ => none
  | fuel + 1, depth, cs =>
      match cs with
      | ']' :: rest => some ([], rest)
      | _ => do
          let (item, rest) ← value? fuel depth cs
          match skipLayout false rest with
          | ',' :: rest =>
              let (items, rest) ← items? fuel depth (skipLayout false rest)
              pure (item :: items, rest)
          | ']' :: rest => pure ([item], rest)
          | _ => none

/-- Read the members of a table in braces up to its end, at least one. -/
def pairs? : (fuel depth : Nat) → Contents → List Char → Option (Contents × List Char)
  | 0, _, _, _ => none
  | fuel + 1, depth, contents, cs => do
      match ← key? cs with
      | (path, '=' :: rest) =>
          let (value, rest) ← value? fuel depth (skipGap rest)
          let contents ← addKey path value contents
          match skipGap rest with
          | ',' :: rest => pairs? fuel depth contents rest
          | '\x7d' :: rest => pure (contents, rest)
          | _ => none
      | _ => none

end

/-! ## Documents -/

/-- A line that says something: a key with its value, the header of a table, or the header of the
next table of a list. -/
inductive Line where
  | pair (path : List String) (value : Toml)
  | header (path : List String)
  | itemHeader (path : List String)

/-- Read one line that says something, apart from its end. -/
def line? (cs : List Char) : Option (Line × List Char) :=
  match cs with
  | '[' :: '[' :: rest => do
      match ← key? rest with
      | (path, ']' :: ']' :: rest) => pure (.itemHeader path, rest)
      | _ => none
  | '[' :: rest => do
      match ← key? rest with
      | (path, ']' :: rest) => pure (.header path, rest)
      | _ => none
  | _ => do
      match ← key? cs with
      | (path, '=' :: rest) =>
          let rest := skipGap rest
          let (value, rest) ← value? (2 * rest.length + 2) nestingLimit rest
          pure (.pair path value, rest)
      | _ => none

/-- Read lines up to the end of the text. -/
def lines? : (fuel : Nat) → List Char → Option (List Line)
  | 0, _ => none
  | fuel + 1, cs =>
      match skipGap cs with
      | [] => some []
      | cs =>
          match endOfLine? cs with
          | some rest => lines? fuel rest
          | none => do
              let (line, rest) ← line? cs
              let rest ← endOfLine? rest
              pure (line :: (← lines? fuel rest))

/-- Add lines to a document, where keys belong to the table at a path. -/
def addLines (current : List String) : List Line → Contents → Option Contents
  | [], document => some document
  | .header path :: lines, document => do addLines path lines (← openTable path document)
  | .itemHeader path :: lines, document => do addLines path lines (← openItem path document)
  | .pair path value :: lines, document => do
      addLines current lines (← within false (addKey path value) current document)

/-- Read a document. A byte order mark may stand before it. -/
def document? (text : String) : Option Toml := do
  let cs := match text.toList with
    | c :: cs => if c.toNat = 0xFEFF then cs else c :: cs
    | [] => []
  let (origin, members) ← addLines [] (← lines? (cs.length + 1) cs) (.header, [])
  pure (.table origin members)

end Ariel.Toml
