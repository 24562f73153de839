/-!
The form of a URI that a client can be pointed at: a path alone, an authority alone, or a
scheme, an authority and whatever follows.
-/

namespace SessionWatch.Uri

def isSchemeChar (c : Char) : Bool := c.isAlphanum || c = '+' || c = '-' || c = '.'

/-- The characters of an authority and the marks that delimit one. -/
def isUriChar (c : Char) : Bool :=
  c.isAlphanum || "-._~:/?#[]@!$&'()*+,;=".toList.contains c

def endsAuthority (c : Char) : Bool := c = '/' || c = '?' || c = '#'

structure Seen where
  /-- Colons that are no part of user information or of an address in brackets. -/
  colons : Nat := 0
  opened : Bool := false
  closed : Bool := false
  percent : Bool := false
  /-- Whether the last character is an at sign. -/
  atSign : Bool := false

namespace Seen

def char? (s : Seen) (c : Char) : Option Seen :=
  let s := { s with atSign := c = '@' }
  if c = ':' then if s.colons < 8 then some { s with colons := s.colons + 1 } else none
  else if c = '[' then
    if s.percent || s.opened then none else some { s with opened := true }
  else if c = ']' then
    if !s.opened || s.closed then none
    else some { s with closed := true, colons := 0, percent := false }
  else if c = '@' then some { s with colons := 0, percent := false }
  else if c = '%' then some { s with percent := true }
  else if isUriChar c then some s
  else none

def isWhole (s : Seen) : Bool := s.opened == s.closed && s.colons ≤ 1 && !s.atSign && !s.percent

end Seen

def afterAuthority? (s : Seen) : List Char → Option (List Char)
  | [] => if s.isWhole then some [] else none
  | c :: cs =>
    if endsAuthority c then if s.isWhole then some (c :: cs) else none
    else match s.char? c with
      | some s => afterAuthority? s cs
      | none => none

def isPathChar (c : Char) : Bool :=
  0x21 ≤ c.toNat && c.toNat ≤ 0x7E && !(['#', '<', '>', '?', Char.ofNat 96].contains c)

def isQueryChar (c : Char) : Bool :=
  let n := c.toNat
  n = 0x21 || (0x24 ≤ n && n ≤ 0x3B) || n = 0x3D || (0x3F ≤ n && n ≤ 0x7E)

/-- A path and a query, up to a fragment. -/
def isPath (cs : List Char) : Bool :=
  let cs := cs.takeWhile (· ≠ '#')
  (cs.takeWhile (· ≠ '?')).all isPathChar && (cs.dropWhile (· ≠ '?')).all isQueryChar

def afterScheme? (cs : List Char) : Option (List Char) :=
  match cs.dropWhile isSchemeChar with
  | ':' :: '/' :: '/' :: rest => some rest
  | _ => none

def isValid (text : String) : Bool :=
  match text.toList with
  | [] => false
  | ['*'] => true
  | '/' :: cs => isPath ('/' :: cs)
  | cs =>
    match afterScheme? cs with
    | none => afterAuthority? {} cs == some []
    | some rest =>
      match afterAuthority? {} rest with
      | some path => path.length < rest.length && isPath path
      | none => false

example : isValid "https://127.0.0.1:1" ∧ isValid "localhost" ∧ ¬ isValid "not a url" ∧
    ¬ isValid "https://" ∧ ¬ isValid "" := by
  decide +kernel

end SessionWatch.Uri
