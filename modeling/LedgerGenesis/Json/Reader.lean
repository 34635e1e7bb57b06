import LedgerGenesis.Json.Basic
import LedgerGenesis.Number.Hexadecimal
import LedgerGenesis.Number.Numeral

/-! # Reading JSON texts

One reader serves two dialects. The lenient dialect reads fractions, exponents and the named constants as
doubles and lets the last of equal keys win; the strict dialect refuses all of them. A dialect's refusal
is met as the text is read: a number where it ends, the keys of an object where it closes.
-/
namespace LedgerGenesis.Json

/-- Why a text denotes no value. -/
inductive ReadError where
  | malformed
  | longNumeral
  | duplicateKey (key : Text)
  | inexactNumber (literal : List Char)
  deriving DecidableEq

/-- A number as written: sign and whole digits, then point and digits, then exponent mark, sign and
digits, either of the last two possibly empty. -/
structure Literal where
  whole : List Char
  fraction : List Char
  exponent : List Char
  deriving DecidableEq

structure Dialect where
  /-- What a number with a fraction or an exponent denotes. -/
  inexact : Literal → Except ReadError Json
  /-- What `NaN`, `Infinity` and `-Infinity` denote. -/
  constant : List Char → Binary64 → Except ReadError Json
  /-- What an object with these fields, in the order of the text, denotes. -/
  object : List (Text × Json) → Except ReadError Json

/-! ## Numbers -/

def digitValue (c : Char) : Nat := c.toNat - '0'.toNat

def ofDigits (cs : List Char) : Nat := Numeral.ofDigits (cs.map digitValue)

def Literal.chars (l : Literal) : List Char := l.whole ++ l.fraction ++ l.exponent

def Literal.isInexact (l : Literal) : Bool := !l.fraction.isEmpty || !l.exponent.isEmpty

/-- Sign and magnitude of sign and digits. -/
def signed : List Char → Bool × List Char
  | '-' :: cs => (true, cs)
  | '+' :: cs => (false, cs)
  | cs => (false, cs)

def Literal.toBinary64 (l : Literal) : Binary64 :=
  let (negative, whole) := signed l.whole
  let fraction := l.fraction.drop 1
  let (down, exponent) := signed (l.exponent.drop 1)
  let exponent : Int := if down then -(ofDigits exponent) else ofDigits exponent
  Binary64.ofDecimal negative (ofDigits (whole ++ fraction)) (exponent - fraction.length)

def Literal.toInt (l : Literal) : Except ReadError Json :=
  let (negative, digits) := signed l.whole
  if Numeral.maxDigits < digits.length then .error .longNumeral
  else
    let n := ofDigits digits
    .ok (.int (if negative then -n else n))

/-- The whole part of a number: no zero stands before another digit. -/
def scanWhole (s : List Char) : Option (List Char × List Char) :=
  match s with
  | '0' :: r => some (['0'], r)
  | c :: _ => if c.isDigit then some (s.takeWhile Char.isDigit, s.dropWhile Char.isDigit) else none
  | [] => none

/-- A point with at least one digit after it. -/
def scanFraction (s : List Char) : List Char × List Char :=
  match s with
  | '.' :: r =>
    if (r.takeWhile Char.isDigit).isEmpty then ([], s)
    else ('.' :: r.takeWhile Char.isDigit, r.dropWhile Char.isDigit)
  | _ => ([], s)

def scanSign : List Char → List Char × List Char
  | '+' :: r => (['+'], r)
  | '-' :: r => (['-'], r)
  | r => ([], r)

/-- An exponent mark with at least one digit after it and its sign. -/
def scanExponent (s : List Char) : List Char × List Char :=
  match s with
  | c :: r =>
    if c = 'e' ∨ c = 'E' then
      let (sign, r) := scanSign r
      if (r.takeWhile Char.isDigit).isEmpty then ([], s)
      else (c :: sign ++ r.takeWhile Char.isDigit, r.dropWhile Char.isDigit)
    else ([], s)
  | [] => ([], s)

def scanLiteral (s : List Char) : Option (Literal × List Char) :=
  let (minus, r) := match s with
    | '-' :: r => (['-'], r)
    | r => ([], r)
  match scanWhole r with
  | none => none
  | some (whole, r) =>
    let (fraction, r) := scanFraction r
    let (exponent, r) := scanExponent r
    some (⟨minus ++ whole, fraction, exponent⟩, r)

/-! ## Strings -/

def hexUnit? (a b c d : Char) : Option Nat :=
  match hexValue? a, hexValue? b, hexValue? c, hexValue? d with
  | some a, some b, some c, some d => some (a * 4096 + b * 256 + c * 16 + d)
  | _, _, _, _ => none

/-- What the character after a backslash stands for, the escape by number apart. -/
def simpleEscape? : Char → Option Char
  | '"' => some '"'
  | '\\' => some '\\'
  | '/' => some '/'
  | 'b' => some '\x08'
  | 'f' => some '\x0c'
  | 'n' => some '\n'
  | 'r' => some '\r'
  | 't' => some '\t'
  | _ => none

/-- The units of a string up to its closing quote, and what follows. -/
def scanString : List Char → Option (Text × List Char)
  | [] => none
  | '"' :: r => some ([], r)
  | '\\' :: 'u' :: a :: b :: c :: d :: r =>
    match hexUnit? a b c d with
    | some n => (scanString r).map fun (t, rest) => (CodePoint.ofNumber n :: t, rest)
    | none => none
  | '\\' :: c :: r =>
    match simpleEscape? c with
    | some e => (scanString r).map fun (t, rest) => (.char e :: t, rest)
    | none => none
  | c :: r =>
    if c.toNat < 0x20 ∨ c = '\\' then none
    else (scanString r).map fun (t, rest) => (.char c :: t, rest)

def readString (s : List Char) : Except ReadError (Text × List Char) :=
  match scanString s with
  | some (t, r) => .ok (t.joinHalves, r)
  | none => .error .malformed

/-! ## Values -/

def isBlank (c : Char) : Bool := c = ' ' || c = '\t' || c = '\n' || c = '\r'

def skipBlanks (s : List Char) : List Char := s.dropWhile isBlank

/-- The rest of a text that starts with the given word. -/
def afterWord : List Char → List Char → Option (List Char)
  | [], s => some s
  | _ :: _, [] => none
  | c :: w, d :: s => if c = d then afterWord w s else none

/-- The words that stand for values in every dialect. -/
def names : List (List Char × Json) :=
  [("null".toList, null), ("true".toList, bool true), ("false".toList, bool false)]

/-- The words that stand for doubles. -/
def constants : List (List Char × Binary64) :=
  [("NaN".toList, .nan), ("Infinity".toList, .infinite false), ("-Infinity".toList, .infinite true)]

/-- The first of the named values whose word a text starts with, that word, and the rest. -/
def firstWord {α : Type} (s : List Char) : List (List Char × α) → Option (List Char × α × List Char)
  | [] => none
  | (w, a) :: rest =>
    match afterWord w s with
    | some r => some (w, a, r)
    | none => firstWord s rest

/-- A value that is no string, list or object. -/
def readScalar (d : Dialect) (s : List Char) : Except ReadError (Json × List Char) :=
  match firstWord s names with
  | some (_, v, r) => .ok (v, r)
  | none =>
    match firstWord s constants with
    | some (w, x, r) => (d.constant w x).map (·, r)
    | none =>
      match scanLiteral s with
      | some (l, r) => (if l.isInexact then d.inexact l else l.toInt).map (·, r)
      | none => .error .malformed

mutual

/-- A value at the start of a text, and what follows it. Each call takes one unit of fuel. -/
def readValue (d : Dialect) : Nat → List Char → Except ReadError (Json × List Char)
  | 0, _ => .error .malformed
  | fuel + 1, s =>
    match s with
    | '"' :: r => (readString r).map fun (t, r) => (.text t, r)
    | '[' :: r =>
      match skipBlanks r with
      | ']' :: r => .ok (.list [], r)
      | r => (readItems d fuel r).map fun (vs, r) => (.list vs, r)
    | '{' :: r =>
      match skipBlanks r with
      | '}' :: r => (d.object []).map (·, r)
      | r =>
        match readFields d fuel r with
        | .ok (fs, r) => (d.object fs).map (·, r)
        | .error e => .error e
    | s => readScalar d s

/-- Items from the first one to the closing bracket. -/
def readItems (d : Dialect) : Nat → List Char → Except ReadError (List Json × List Char)
  | 0, _ => .error .malformed
  | fuel + 1, s =>
    match readValue d fuel s with
    | .error e => .error e
    | .ok (v, r) =>
      match skipBlanks r with
      | ']' :: r => .ok ([v], r)
      | ',' :: r => (readItems d fuel (skipBlanks r)).map fun (vs, r) => (v :: vs, r)
      | _ => .error .malformed

/-- Fields from the first key to the closing brace. -/
def readFields (d : Dialect) : Nat → List Char → Except ReadError (List (Text × Json) × List Char)
  | 0, _ => .error .malformed
  | fuel + 1, s =>
    match s with
    | '"' :: r =>
      match readString r with
      | .error e => .error e
      | .ok (k, r) =>
        match skipBlanks r with
        | ':' :: r =>
          match readValue d fuel (skipBlanks r) with
          | .error e => .error e
          | .ok (v, r) =>
            match skipBlanks r with
            | '}' :: r => .ok ([(k, v)], r)
            | ',' :: r => (readFields d fuel (skipBlanks r)).map fun (fs, r) => ((k, v) :: fs, r)
            | _ => .error .malformed
        | _ => .error .malformed
    | _ => .error .malformed

end

/-- The value of a whole text, blanks around it apart. A value takes at most two calls for each character,
whether it ends well or not. -/
def read (d : Dialect) (s : List Char) : Except ReadError Json :=
  match readValue d (2 * s.length + 2) (skipBlanks s) with
  | .error e => .error e
  | .ok (v, r) => if (skipBlanks r).isEmpty then .ok v else .error .malformed

/-! ## Dialects -/

/-- The fields of an object whose equal keys take the place of the first and the value of the last. -/
def mergeFields (fields : List (Text × Json)) : List (Text × Json) :=
  fields.foldl (fun fs kv => setField kv.1 kv.2 fs) []

/-- The first key that stands earlier as well. -/
def firstRepeated : List Text → List Text → Option Text
  | _, [] => none
  | seen, k :: ks => if k ∈ seen then some k else firstRepeated (k :: seen) ks

def Dialect.lenient : Dialect where
  inexact l := .ok (.float l.toBinary64)
  constant _ x := .ok (.float x)
  object fields := .ok (.object (mergeFields fields))

def Dialect.strict : Dialect where
  inexact l := .error (.inexactNumber l.chars)
  constant w _ := .error (.inexactNumber w)
  object fields :=
    match firstRepeated [] (keys fields) with
    | some k => .error (.duplicateKey k)
    | none => .ok (.object fields)

end LedgerGenesis.Json
