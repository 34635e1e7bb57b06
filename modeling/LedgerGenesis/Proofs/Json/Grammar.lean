import LedgerGenesis.Json.Reader

/-! # The grammar of JSON texts

The rules take what they spell off the front of a text and leave the rest. They say which values stand
where, and nothing about doubles, long numerals and repeated keys, which only a dialect refuses: a number
with a fraction or an exponent spells a double, and an object has its fields in the order of the text.
-/
namespace LedgerGenesis.Json

/-- Only spaces, tabs and line breaks stand before the rest. -/
inductive Blanks : List Char → List Char → Prop
  | none {s : List Char} : Blanks s s
  | more {c : Char} {s r : List Char} (hc : c = ' ' ∨ c = '\t' ∨ c = '\n' ∨ c = '\r')
      (h : Blanks s r) : Blanks (c :: s) r

/-- A mark with blanks on both sides stands before the rest. -/
inductive Marked (c : Char) : List Char → List Char → Prop
  | mk {s t r : List Char} (hs : Blanks s (c :: t)) (ht : Blanks t r) : Marked c s r

/-! ## Strings -/

/-- The units of a string, up to its closing quote and with it. -/
inductive Units : Text → List Char → List Char → Prop
  | close {r : List Char} : Units [] ('"' :: r) r
  | plain {c : Char} {u : Text} {s r : List Char} (hc : 0x20 ≤ c.toNat) (hquote : c ≠ '"')
      (hslash : c ≠ '\\') (h : Units u s r) : Units (.char c :: u) (c :: s) r
  | escape {c e : Char} {u : Text} {s r : List Char} (he : simpleEscape? c = some e)
      (h : Units u s r) : Units (.char e :: u) ('\\' :: c :: s) r
  | number {a b c d : Char} {n : Nat} {u : Text} {s r : List Char} (hn : hexUnit? a b c d = some n)
      (h : Units u s r) : Units (CodePoint.ofNumber n :: u) ('\\' :: 'u' :: a :: b :: c :: d :: s) r

/-- Between its quotes a string denotes its units, neighbouring halves as the character they encode. -/
inductive Quoted : Text → List Char → List Char → Prop
  | mk {u : Text} {s r : List Char} (h : Units u s r) : Quoted u.joinHalves ('"' :: s) r

/-! ## Numbers -/

/-- One digit at least. -/
def IsDigits (ds : List Char) : Prop := ds ≠ [] ∧ ∀ c ∈ ds, c.isDigit = true

def IsSign (cs : List Char) : Prop := cs = [] ∨ cs = ['+'] ∨ cs = ['-']

/-- A number has a numeral without needless zeros, then a fraction, an exponent, both or neither. -/
structure Literal.IsNumber (l : Literal) : Prop where
  whole : ∃ n, l.whole = Nat.toDigits 10 n ∨ l.whole = '-' :: Nat.toDigits 10 n
  fraction : l.fraction = [] ∨ ∃ ds, IsDigits ds ∧ l.fraction = '.' :: ds
  exponent : l.exponent = [] ∨ ∃ e sign ds, (e = 'e' ∨ e = 'E') ∧ IsSign sign ∧ IsDigits ds ∧
    l.exponent = e :: (sign ++ ds)

/-! ## Values -/

/-- What a stretch of a text spells: a value, or the items or fields of one up to its closing bracket. -/
inductive Phrase where
  | value (v : Json)
  | items (vs : List Json)
  | fields (fs : List (Text × Json))

inductive Spells : Phrase → List Char → List Char → Prop
  | null {r : List Char} : Spells (.value null) ("null".toList ++ r) r
  | «true» {r : List Char} : Spells (.value (bool true)) ("true".toList ++ r) r
  | «false» {r : List Char} : Spells (.value (bool false)) ("false".toList ++ r) r
  | natural {n : Nat} {r : List Char} : Spells (.value (int n)) (Nat.toDigits 10 n ++ r) r
  | negative {n : Nat} {r : List Char} :
      Spells (.value (int (-n))) ('-' :: Nat.toDigits 10 n ++ r) r
  | inexact {l : Literal} {r : List Char} (h : l.IsNumber) (hx : l.isInexact = true) :
      Spells (.value (float l.toBinary64)) (l.chars ++ r) r
  | constant {w : List Char} {x : Binary64} {r : List Char} (h : (w, x) ∈ constants) :
      Spells (.value (float x)) (w ++ r) r
  | text {t : Text} {s r : List Char} (h : Quoted t s r) : Spells (.value (text t)) s r
  | emptyList {s r : List Char} (h : Blanks s (']' :: r)) : Spells (.value (list [])) ('[' :: s) r
  | list {vs : List Json} {s t r : List Char} (hb : Blanks s t) (h : Spells (.items vs) t r) :
      Spells (.value (list vs)) ('[' :: s) r
  | emptyObject {s r : List Char} (h : Blanks s ('\x7d' :: r)) :
      Spells (.value (object [])) ('\x7b' :: s) r
  | object {fs : List (Text × Json)} {s t r : List Char} (hb : Blanks s t)
      (h : Spells (.fields fs) t r) : Spells (.value (object fs)) ('\x7b' :: s) r
  | lastItem {v : Json} {s t r : List Char} (hv : Spells (.value v) s t)
      (hb : Blanks t (']' :: r)) : Spells (.items [v]) s r
  | item {v : Json} {vs : List Json} {s t u r : List Char} (hv : Spells (.value v) s t)
      (hm : Marked ',' t u) (h : Spells (.items vs) u r) : Spells (.items (v :: vs)) s r
  | lastField {k : Text} {v : Json} {s t u w r : List Char} (hk : Quoted k s t)
      (hc : Marked ':' t u) (hv : Spells (.value v) u w) (hb : Blanks w ('\x7d' :: r)) :
      Spells (.fields [(k, v)]) s r
  | field {k : Text} {v : Json} {fs : List (Text × Json)} {s t u w z r : List Char}
      (hk : Quoted k s t) (hc : Marked ':' t u) (hv : Spells (.value v) u w) (hm : Marked ',' w z)
      (h : Spells (.fields fs) z r) : Spells (.fields ((k, v) :: fs)) s r

/-- A whole text denotes the value that it spells between blanks. -/
inductive Denotes : List Char → Json → Prop
  | mk {v : Json} {s t r : List Char} (hs : Blanks s t) (hv : Spells (.value v) t r)
      (hr : Blanks r []) : Denotes s v

end LedgerGenesis.Json
