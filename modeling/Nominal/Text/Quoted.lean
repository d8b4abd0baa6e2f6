import Nominal.Text.Extender
import Nominal.Text.Ignorable
import Nominal.Text.Unprintable

/-!
# Quoted text

A text between double quotes, readable on one line: quotes and backslashes are escaped, the usual
controls have short names, and any other character that would not show is given by number.
-/

namespace Nominal

/-- A backslash, `u`, and the code point of `c` in lower-case hexadecimal between braces. -/
def numberedEscape (c : Char) : List Char :=
  ['\\', 'u', '\x7b'] ++ Nat.toDigits 16 c.toNat ++ ['\x7d']

/-- How `c` is written between double quotes. -/
def escapeChar (c : Char) : List Char :=
  if c = '\x00' then ['\\', '0']
  else if c = '\t' then ['\\', 't']
  else if c = '\n' then ['\\', 'n']
  else if c = '\r' then ['\\', 'r']
  else if c = '"' then ['\\', '"']
  else if c = '\\' then ['\\', '\\']
  else if isExtender c || isIgnorable c || isUnprintable c then numberedEscape c
  else [c]

/-- `text` between double quotes. -/
def quoted (text : String) : String :=
  String.ofList ('"' :: text.toList.flatMap escapeChar ++ ['"'])

end Nominal
