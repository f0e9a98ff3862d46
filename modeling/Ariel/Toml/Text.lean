import Ariel.Text.Hexadecimal
import Ariel.Toml.Value

/-!
# Texts and gaps in TOML

A text stands in double quotes, with escapes, or in single quotes, without. Three quotes enclose
text of several lines. Every reader takes what it reads from the front of a text and gives the rest.
-/

namespace Ariel.Toml

open Ariel.Text

/-- A space or a tab. -/
def isGap (c : Char) : Bool := c == ' ' || c == '\t'

/-- A character that may stand anywhere on a line: a tab, or one that is no control character. -/
def isPlain (c : Char) : Bool := c == '\t' || (0x20 ≤ c.toNat && c.toNat != 0x7F)

/-- A character that stands for itself between double quotes. -/
def isUnescaped (c : Char) : Bool := isPlain c && c != '"' && c != '\\'

/-- A character that stands for itself between single quotes. -/
def isLiteral (c : Char) : Bool := isPlain c && c != '\''

/-- The text after the spaces and tabs at its front. -/
def skipGap (cs : List Char) : List Char := cs.dropWhile isGap

/-- Take the end of a line, or the end of the text. -/
def lineEnd? : List Char → Option (List Char)
  | [] => some []
  | '\n' :: cs => some cs
  | '\r' :: '\n' :: cs => some cs
  | _ => none

/-- The text after a comment at its front, which ends before the end of the line. -/
def skipComment : List Char → List Char
  | '#' :: cs => cs.dropWhile isPlain
  | cs => cs

/-- Take what is left of a line when nothing but a comment may follow. -/
def endOfLine? (cs : List Char) : Option (List Char) :=
  lineEnd? (skipComment (skipGap cs))

/-- The text after all spaces, tabs, line ends and comments at its front. -/
def skipLayout (inComment : Bool) : List Char → List Char
  | [] => []
  | c :: cs =>
      if inComment && isPlain c then skipLayout true cs
      else if c = '#' then skipLayout true cs
      else if isGap c || c = '\n' then skipLayout false cs
      else if c = '\r' && cs.head? = some '\n' then skipLayout false cs
      else c :: cs

/-- The character whose number is written in hexadecimal digits. Surrogates are no characters. -/
def codePoint? (digits : List Char) : Option Char := do
  let n := (← digits.mapM hexValue?).foldl (fun n digit => 16 * n + digit) 0
  if n < 0xD800 || (0xE000 ≤ n && n < 0x110000) then some (Char.ofNat n) else none

/-- The character that a one-letter escape stands for. -/
def escape? : Char → Option Char
  | '"' => some '"'
  | '\\' => some '\\'
  | 'b' => some (Char.ofNat 8)
  | 'f' => some (Char.ofNat 12)
  | 'n' => some '\n'
  | 'r' => some '\r'
  | 't' => some '\t'
  | _ => none

/-- Put a character before a text that was read. -/
def before (c : Char) : List Char × List Char → List Char × List Char
  | (text, rest) => (c :: text, rest)

/-- Read a text on one line up to its closing double quote. -/
def quotedText? : List Char → Option (List Char × List Char)
  | [] => none
  | '"' :: cs => some ([], cs)
  | '\\' :: 'u' :: a :: b :: c :: d :: cs => do
      let code ← codePoint? [a, b, c, d]
      (quotedText? cs).map (before code)
  | '\\' :: 'U' :: a :: b :: c :: d :: e :: f :: g :: h :: cs => do
      let code ← codePoint? [a, b, c, d, e, f, g, h]
      (quotedText? cs).map (before code)
  | '\\' :: c :: cs => do
      let code ← escape? c
      (quotedText? cs).map (before code)
  | c :: cs => if isUnescaped c then (quotedText? cs).map (before c) else none

/-- Read a text of several lines up to its three closing double quotes. Up to two more quotes before
them belong to the text. A backslash at the end of a line joins it to the next text, and `joining`
says that this is going on. -/
def quotedLines? (joining : Bool) : List Char → Option (List Char × List Char)
  | [] => none
  | '"' :: '"' :: '"' :: '"' :: '"' :: cs => some (['"', '"'], cs)
  | '"' :: '"' :: '"' :: '"' :: cs => some (['"'], cs)
  | '"' :: '"' :: '"' :: cs => some ([], cs)
  | '"' :: cs => (quotedLines? false cs).map (before '"')
  | '\\' :: 'u' :: a :: b :: c :: d :: cs => do
      let code ← codePoint? [a, b, c, d]
      (quotedLines? false cs).map (before code)
  | '\\' :: 'U' :: a :: b :: c :: d :: e :: f :: g :: h :: cs => do
      let code ← codePoint? [a, b, c, d, e, f, g, h]
      (quotedLines? false cs).map (before code)
  | '\\' :: c :: cs =>
      match escape? c with
      | some code => (quotedLines? false cs).map (before code)
      | none =>
          let rest := skipGap (c :: cs)
          if !rest.isEmpty && (lineEnd? rest).isSome then quotedLines? true cs else none
  | c :: cs =>
      if joining && isGap c then quotedLines? true cs
      else if c = '\r' then
        if cs.head? = some '\n' then quotedLines? joining cs else none
      else if c = '\n' then
        if joining then quotedLines? true cs else (quotedLines? false cs).map (before '\n')
      else if isUnescaped c then (quotedLines? false cs).map (before c)
      else none

/-- Read a text on one line up to its closing single quote. -/
def literalText? (cs : List Char) : Option (List Char × List Char) :=
  match cs.dropWhile isLiteral with
  | '\'' :: rest => some (cs.takeWhile isLiteral, rest)
  | _ => none

/-- Read a text of several lines up to its three closing single quotes. Up to two more quotes before
them belong to the text. -/
def literalLines? : List Char → Option (List Char × List Char)
  | [] => none
  | '\'' :: '\'' :: '\'' :: '\'' :: '\'' :: cs => some (['\'', '\''], cs)
  | '\'' :: '\'' :: '\'' :: '\'' :: cs => some (['\''], cs)
  | '\'' :: '\'' :: '\'' :: cs => some ([], cs)
  | '\r' :: '\n' :: cs => (literalLines? cs).map (before '\n')
  | c :: cs => if c = '\n' || isPlain c then (literalLines? cs).map (before c) else none

/-- The text after a line end that follows three opening quotes. -/
def skipFirstLineEnd (cs : List Char) : List Char := (lineEnd? cs).getD cs

/-- Read a text in any of its four forms. -/
def text? (cs : List Char) : Option (List Char × List Char) :=
  match cs with
  | '"' :: '"' :: '"' :: cs => quotedLines? false (skipFirstLineEnd cs)
  | '"' :: cs => quotedText? cs
  | '\'' :: '\'' :: '\'' :: cs => literalLines? (skipFirstLineEnd cs)
  | '\'' :: cs => literalText? cs
  | _ => none

/-- A character of a key that stands without quotes. -/
def isBareKey (c : Char) : Bool := c.isAlphanum || c == '_' || c == '-'

/-- Read one part of a key. -/
def simpleKey? (cs : List Char) : Option (String × List Char) :=
  match cs with
  | '"' :: cs => (quotedText? cs).map fun (text, rest) => (String.ofList text, rest)
  | '\'' :: cs => (literalText? cs).map fun (text, rest) => (String.ofList text, rest)
  | _ =>
      let name := cs.takeWhile isBareKey
      if name.isEmpty then none else some (String.ofList name, cs.dropWhile isBareKey)

end Ariel.Toml
