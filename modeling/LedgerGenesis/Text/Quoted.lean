import LedgerGenesis.Number.Hexadecimal
import LedgerGenesis.Text.Printable

/-! # Quoted text

A text is quoted with apostrophes, or with double quotes when it holds an apostrophe and no double
quote. The quote in use, the backslash and every unprintable code point are escaped.
-/
namespace LedgerGenesis

namespace Text

def quoteEscape (quote : Char) (p : CodePoint) : Text :=
  if p = .char quote ∨ p = .char '\\' then [.char '\\', p]
  else if p = .char '\n' then "\\n"
  else if p = .char '\r' then "\\r"
  else if p = .char '\t' then "\\t"
  else if p.isPrintable then [p]
  else
    let n := p.number
    if n < 0x100 then ofChars ('\\' :: 'x' :: hexDigits 2 n)
    else if n < 0x10000 then ofChars ('\\' :: 'u' :: hexDigits 4 n)
    else ofChars ('\\' :: 'U' :: hexDigits 8 n)

def quoteMark (t : Text) : Char :=
  if t.contains (.char '\'') && !t.contains (.char '"') then '"' else '\''

def quoted (t : Text) : Text :=
  let mark := quoteMark t
  .char mark :: t.flatMap (quoteEscape mark) ++ [.char mark]

end Text

end LedgerGenesis
