import LedgerGenesis.Json.Basic
import LedgerGenesis.Number.Hexadecimal
import LedgerGenesis.Number.Shortest

/-! # Writing JSON texts

Two spaces of indentation for each level, one field or item a line, and nothing inside empty lists and
objects. A style says which code points are escaped: documents keep all but quotes, backslashes and
control characters as they are, configuration files keep ASCII alone.
-/
namespace LedgerGenesis.Json

abbrev Style := CodePoint → Text

def unitEscape (n : Nat) : Text := Text.ofChars ('\\' :: 'u' :: hexDigits 4 n)

/-- Quotes, backslashes and the control characters that have an escape of their own. -/
def shortEscape? (p : CodePoint) : Option Text :=
  if p = .char '"' then some "\\\""
  else if p = .char '\\' then some "\\\\"
  else if p = .char '\n' then some "\\n"
  else if p = .char '\r' then some "\\r"
  else if p = .char '\t' then some "\\t"
  else if p = .char '\x08' then some "\\b"
  else if p = .char '\x0c' then some "\\f"
  else none

/-- The style of documents. -/
def plainStyle : Style := fun p =>
  match shortEscape? p with
  | some t => t
  | none => if p.number < 0x20 then unitEscape p.number else [p]

/-- The style of configuration files; a character beyond the first plane is two units. -/
def asciiStyle : Style := fun p =>
  match shortEscape? p with
  | some t => t
  | none =>
    let n := p.number
    if 0x20 ≤ n ∧ n < 0x7F then [p]
    else if n < 0x10000 then unitEscape n
    else
      unitEscape (0xD800 + (n - 0x10000) / 0x400) ++ unitEscape (0xDC00 + (n - 0x10000) % 0x400)

def renderText (style : Style) (t : Text) : Text :=
  .char '"' :: t.flatMap style ++ [.char '"']

def lineBreak (depth : Nat) : Text := .char '\n' :: List.replicate (2 * depth) (.char ' ')

def renderScalar (style : Style) : Json → Text
  | null => "null"
  | bool true => "true"
  | bool false => "false"
  | int n => Text.ofInt n
  | float x => x.render Binary64.documentLayout
  | text t => renderText style t
  | _ => []

/-- The key of a mapping as the text that a document shows for it. -/
def keyLabel : Json → Text
  | text t => t
  | v => renderScalar plainStyle v

mutual

def render (style : Style) (depth : Nat) : Json → Text
  | list [] => "[]"
  | list (v :: vs) =>
    .char '[' :: lineBreak (depth + 1) ++ render style (depth + 1) v ++
      renderItems style (depth + 1) vs ++ lineBreak depth ++ "]"
  | object [] => "\x7b\x7d"
  | object ((k, v) :: fields) =>
    .char '\x7b' :: lineBreak (depth + 1) ++ renderText style k ++ ": " ++
      render style (depth + 1) v ++ renderFields style (depth + 1) fields ++ lineBreak depth ++ "\x7d"
  | table [] => "\x7b\x7d"
  | table ((k, v) :: rows) =>
    .char '\x7b' :: lineBreak (depth + 1) ++ renderText style (keyLabel k) ++ ": " ++
      render style (depth + 1) v ++ renderRows style (depth + 1) rows ++ lineBreak depth ++ "\x7d"
  | null => renderScalar style null
  | bool b => renderScalar style (bool b)
  | int n => renderScalar style (int n)
  | float x => renderScalar style (float x)
  | text t => renderScalar style (text t)

def renderItems (style : Style) (depth : Nat) : List Json → Text
  | [] => []
  | v :: vs => .char ',' :: lineBreak depth ++ render style depth v ++ renderItems style depth vs

def renderFields (style : Style) (depth : Nat) : List (Text × Json) → Text
  | [] => []
  | (k, v) :: fields =>
    .char ',' :: lineBreak depth ++ renderText style k ++ ": " ++ render style depth v ++
      renderFields style depth fields

def renderRows (style : Style) (depth : Nat) : List (Json × Json) → Text
  | [] => []
  | (k, v) :: rows =>
    .char ',' :: lineBreak depth ++ renderText style (keyLabel k) ++ ": " ++ render style depth v ++
      renderRows style depth rows

end

end LedgerGenesis.Json
