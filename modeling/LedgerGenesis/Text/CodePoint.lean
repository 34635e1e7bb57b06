/-! # Text as a list of code points

A text holds characters and, where an escape left one behind, halves of surrogate pairs that stand
alone. Only a text without such halves has a UTF-8 form.
-/
namespace LedgerGenesis

/-- A character, or half of a surrogate pair standing alone, given by its offset from U+D800. -/
inductive CodePoint where
  | char (c : Char)
  | surrogate (offset : Fin 2048)
  deriving DecidableEq, Inhabited

abbrev Text := List CodePoint

namespace CodePoint

/-- The number that Unicode assigns to the code point. -/
def number : CodePoint → Nat
  | char c => c.toNat
  | surrogate u => 0xD800 + u.val

def ofNumber (n : Nat) : CodePoint :=
  if h : 0xD800 ≤ n ∧ n < 0xE000 then surrogate ⟨n - 0xD800, by omega⟩ else char (Char.ofNat n)

def char? : CodePoint → Option Char
  | char c => some c
  | surrogate _ => none

/-- The character that a leading and a trailing half make together. -/
def join? : CodePoint → CodePoint → Option Char
  | surrogate h, surrogate l =>
    if h.val < 1024 ∧ 1024 ≤ l.val then some (Char.ofNat (0x10000 + h.val * 1024 + (l.val - 1024)))
    else none
  | _, _ => none

end CodePoint

namespace Text

def ofChars (cs : List Char) : Text := cs.map .char

def ofString (s : String) : Text := ofChars s.toList

instance : Coe String Text := ⟨ofString⟩

/-- The characters of a text in which no surrogate half stands alone. -/
def chars? : Text → Option (List Char)
  | [] => some []
  | .char c :: t => (chars? t).map (c :: ·)
  | .surrogate _ :: _ => none

/-- Neighbouring halves become the character they encode. -/
def joinHalves : Text → Text
  | [] => []
  | [p] => [p]
  | p :: q :: t =>
    match p.join? q with
    | some c => .char c :: joinHalves t
    | none => p :: joinHalves (q :: t)

def joinWith (separator : Text) : List Text → Text
  | [] => []
  | [t] => t
  | t :: u :: ts => t ++ separator ++ joinWith separator (u :: ts)

def ofInt : Int → Text
  | .ofNat n => ofChars (Nat.toDigits 10 n)
  | .negSucc n => .char '-' :: ofChars (Nat.toDigits 10 (n + 1))

def ofNat (n : Nat) : Text := ofInt n

/-- The text as it would be shown, each half that stands alone by the replacement character. -/
def toDisplay (t : Text) : String :=
  String.ofList (t.map fun p => p.char?.getD '\uFFFD')

end Text

end LedgerGenesis
