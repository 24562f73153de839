import SessionWatch.Table
import SessionWatch.Text.Unprintable

/-!
Text shown between quotes for a person to read: a character without a shape of its own is
shown by its code point, so that no two texts look alike.
-/

namespace SessionWatch.Quoted

def codePoint (c : Char) : List Char :=
  ['\\', 'u', '\x7b'] ++ Nat.toDigits 16 c.toNat ++ ['\x7d']

def shown (c : Char) : List Char :=
  if c = '"' then ['\\', '"']
  else if c = '\\' then ['\\', '\\']
  else if c.toNat = 0 then ['\\', '0']
  else if c.toNat = 9 then ['\\', 't']
  else if c.toNat = 10 then ['\\', 'n']
  else if c.toNat = 13 then ['\\', 'r']
  else if c.toNat < 32 then codePoint c
  else if c.toNat < 127 then [c]
  else if Unprintable.contains c then codePoint c
  else [c]

def chars (s : String) : List Char := '"' :: (s.toList.flatMap shown ++ ['"'])

def text (s : String) : String := String.ofList (chars s)

def entry (e : String × String) : String := text e.1 ++ ": " ++ text e.2

/-- The pairs of a table between braces, in the order of their keys. -/
def ofLabels (t : Labels) : String :=
  "\x7b" ++ ", ".intercalate (t.entries.map entry) ++ "\x7d"

end SessionWatch.Quoted
