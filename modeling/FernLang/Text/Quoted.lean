import FernLang.Text.Printable

/-!
Quoted text. A text stands between single quotes, or between double quotes when it holds a
single quote and no double one. The quote in use and the backslash are escaped by a backslash,
line ends and tabs by their letters, and characters without a glyph by their code in hexadecimal.
-/

namespace FernLang.Text

def hexDigits (width code : Nat) : List Char :=
  match width with
  | 0 => []
  | width + 1 => hexDigits width (code / 16) ++ [Nat.digitChar (code % 16)]

def escapedCode (code : Nat) : List Char :=
  if code < 0x100 then '\\' :: 'x' :: hexDigits 2 code
  else if code < 0x10000 then '\\' :: 'u' :: hexDigits 4 code
  else '\\' :: 'U' :: hexDigits 8 code

def quotedChar (quote c : Char) : List Char :=
  if c == quote || c == '\\' then ['\\', c]
  else if c == '\n' then ['\\', 'n']
  else if c == '\r' then ['\\', 'r']
  else if c == '\t' then ['\\', 't']
  else if isPrintable c then [c]
  else escapedCode c.toNat

def quoteFor (text : List Char) : Char :=
  if text.contains '\x27' && !text.contains '\x22' then '\x22' else '\x27'

def quoted (text : String) : String :=
  let quote := quoteFor text.toList
  String.ofList (quote :: text.toList.flatMap (quotedChar quote) ++ [quote])

end FernLang.Text
