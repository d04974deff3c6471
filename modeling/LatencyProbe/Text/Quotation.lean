import LatencyProbe.Text.Hidden

/-!
# Strings quoted for people

How an error message shows a string: between quotes, with short escapes for the usual controls and
the number of every other character that would not be seen.
-/

namespace LatencyProbe.Text

/-- How a character stands between the quotes. -/
def shown (c : Char) : List Char :=
  if c = '"' then ['\\', '"']
  else if c = '\\' then ['\\', '\\']
  else if c = '\n' then ['\\', 'n']
  else if c = '\r' then ['\\', 'r']
  else if c = '\t' then ['\\', 't']
  else if c.toNat = 0 then ['\\', '0']
  else if isHidden c then '\\' :: 'u' :: '{' :: (Nat.toDigits 16 c.toNat ++ ['}'])
  else [c]

/-- A string between quotes. -/
def quotation (s : String) : String := String.ofList ('"' :: (s.toList.flatMap shown ++ ['"']))

end LatencyProbe.Text
