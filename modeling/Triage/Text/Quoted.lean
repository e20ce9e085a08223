import Triage.Text.Visible

/-!
# Quoted names

A name as it stands in a message: in double quotes, with quotes and backslashes
escaped, the most common controls by a letter, and every other character that
would not show by its code point (`\\u\x7b200b\x7d`).
-/

namespace Triage.Text

def quoteChar (c : Char) : List Char :=
  if c = '"' then ['\\', '"']
  else if c = '\\' then ['\\', '\\']
  else if c = '\x00' then ['\\', '0']
  else if c = '\t' then ['\\', 't']
  else if c = '\n' then ['\\', 'n']
  else if c = '\r' then ['\\', 'r']
  else if isVisible c then [c]
  else '\\' :: 'u' :: '\x7b' :: (Nat.toDigits 16 c.toNat ++ ['\x7d'])

def quoted (s : String) : String := String.ofList ('"' :: (s.toList.flatMap quoteChar ++ ['"']))

end Triage.Text
