/-!
# Escaped characters

How a character that may not be printable is shown inside a message.
-/

namespace SheetLint.Text

/-- Shows a character in a message: printable ASCII as it is, quotes and the backslash behind a
    backslash, tab and line ends by their letter, and all else by its code in hexadecimal. -/
def escaped (c : Char) : List Char :=
  if c = '\t' then ['\\', 't']
  else if c = '\r' then ['\\', 'r']
  else if c = '\n' then ['\\', 'n']
  else if c = '\'' then ['\\', '\'']
  else if c = '"' then ['\\', '"']
  else if c = '\\' then ['\\', '\\']
  else if 0x20 ≤ c.toNat && c.toNat ≤ 0x7E then [c]
  else ['\\', 'u', '\x7b'] ++ Nat.toDigits 16 c.toNat ++ ['\x7d']

end SheetLint.Text
