import SessionWatch.Text.Json

/-!
Reading JSON text. Repeated fields are kept, so that each consumer decides about them. What is
inside the values of the outermost object or list is only passed over by all of them, and the names
of fields in there need not stand for texts.
-/

namespace SessionWatch.Json

def skip : List Char → List Char
  | [] => []
  | c :: cs => if c = ' ' ∨ c = '\n' ∨ c = '\t' ∨ c = '\r' then skip cs else c :: cs

def hexValue? (c : Char) : Option Nat :=
  if c.isDigit then some (c.toNat - 48)
  else if 'a' ≤ c ∧ c ≤ 'f' then some (c.toNat - 87)
  else if 'A' ≤ c ∧ c ≤ 'F' then some (c.toNat - 55)
  else none

def unescape? (c : Char) : Option Char :=
  if c = '"' ∨ c = '\\' ∨ c = '/' then some c
  else if c = 'b' then some (Char.ofNat 8)
  else if c = 't' then some (Char.ofNat 9)
  else if c = 'n' then some (Char.ofNat 10)
  else if c = 'f' then some (Char.ofNat 12)
  else if c = 'r' then some (Char.ofNat 13)
  else none

def isHighSurrogate (n : Nat) : Bool := 0xD800 ≤ n && n < 0xDC00

def isLowSurrogate (n : Nat) : Bool := 0xDC00 ≤ n && n < 0xE000

def joinSurrogates (high low : Nat) : Char :=
  Char.ofNat (0x10000 + (high - 0xD800) * 0x400 + (low - 0xDC00))

/-- Where the reader of a string stands: in text, behind a backslash, inside four hexadecimal
digits, or waiting for the second half of a surrogate pair. -/
inductive StringMode where
  | plain
  | escaped
  | hex (left : Nat) (value : Nat) (high : Option Nat)
  | pairSlash (high : Nat)
  | pairMark (high : Nat)

private def push (c : Char) : Option (List Char × List Char) → Option (List Char × List Char)
  | some (s, rest) => some (c :: s, rest)
  | none => none

def stringFrom : StringMode → List Char → Option (List Char × List Char)
  | _, [] => none
  | .plain, c :: cs =>
    if c = '"' then some ([], cs)
    else if c = '\\' then stringFrom .escaped cs
    else if c.toNat < 32 then none
    else push c (stringFrom .plain cs)
  | .escaped, c :: cs =>
    if c = 'u' then stringFrom (.hex 3 0 none) cs
    else match unescape? c with
      | some d => push d (stringFrom .plain cs)
      | none => none
  | .hex left value high, c :: cs =>
    match hexValue? c with
    | none => none
    | some d =>
      let value := value * 16 + d
      match left with
      | n + 1 => stringFrom (.hex n value high) cs
      | 0 =>
        match high with
        | some h =>
          if isLowSurrogate value then push (joinSurrogates h value) (stringFrom .plain cs)
          else none
        | none =>
          if isHighSurrogate value then stringFrom (.pairSlash value) cs
          else if isLowSurrogate value then none
          else push (Char.ofNat value) (stringFrom .plain cs)
  | .pairSlash h, c :: cs => if c = '\\' then stringFrom (.pairMark h) cs else none
  | .pairMark h, c :: cs => if c = 'u' then stringFrom (.hex 3 0 (some h)) cs else none

/-- Where the reader of a string that is only passed over stands. -/
inductive PassMode where
  | plain
  | escaped
  | digits (left : Nat)

/-- A string as it is written up to its closing quote, and the input behind it. What its escapes
stand for does not matter. -/
def writtenFrom : PassMode → List Char → Option (List Char × List Char)
  | _, [] => none
  | .plain, c :: cs =>
    if c = '"' then some ([], cs)
    else if c.toNat < 32 then none
    else push c (writtenFrom (if c = '\\' then .escaped else .plain) cs)
  | .escaped, c :: cs =>
    if c = 'u' then push c (writtenFrom (.digits 3) cs)
    else if (unescape? c).isSome then push c (writtenFrom .plain cs)
    else none
  | .digits left, c :: cs =>
    if (hexValue? c).isSome then
      push c (writtenFrom (match left with | 0 => .plain | n + 1 => .digits n) cs)
    else none

def string? : List Char → Option (String × List Char)
  | '"' :: cs => (stringFrom .plain cs).map fun r => (String.ofList r.1, r.2)
  | _ => none

/-- The digits at the front, none in front of them but a lone zero. -/
def wholePart? (cs : List Char) : Option (List Char × List Char) :=
  match cs.takeWhile Char.isDigit with
  | [] => none
  | '0' :: _ :: _ => none
  | ds => some (ds, cs.dropWhile Char.isDigit)

/-- A point and at least one digit, or nothing. -/
def fraction? : List Char → Option (List Char × List Char)
  | '.' :: cs =>
    match cs.takeWhile Char.isDigit with
    | [] => none
    | ds => some ('.' :: ds, cs.dropWhile Char.isDigit)
  | cs => some ([], cs)

/-- An exponent mark, an optional sign and at least one digit, or nothing. -/
def exponent? : List Char → Option (List Char × List Char)
  | [] => some ([], [])
  | c :: cs =>
    if c = 'e' ∨ c = 'E' then
      let (sign, cs) := match cs with
        | '+' :: r => (['+'], r)
        | '-' :: r => (['-'], r)
        | r => ([], r)
      match cs.takeWhile Char.isDigit with
      | [] => none
      | ds => some (c :: (sign ++ ds), cs.dropWhile Char.isDigit)
    else some ([], c :: cs)

/-- An unsigned number behind the sign that was read. -/
def unsigned? (sign : List Char) (cs : List Char) : Option (Json × List Char) :=
  match wholePart? cs with
  | none => none
  | some (whole, cs) =>
    match fraction? cs with
    | none => none
    | some (frac, cs) =>
      match exponent? cs with
      | none => none
      | some (exp, cs) =>
        let text := sign ++ whole ++ frac ++ exp
        if frac = [] ∧ exp = [] ∧ text ≠ ['-', '0'] then
          (Decimal.toInt? text).map fun i => (.int i, cs)
        else some (.real (String.ofList text), cs)

def number? : List Char → Option (Json × List Char)
  | '-' :: cs => unsigned? ['-'] cs
  | cs => unsigned? [] cs

def itemsFrom {α : Type} (item : List Char → Option (α × List Char)) (close : Char) :
    Nat → List Char → Option (List α × List Char)
  | 0, _ => none
  | n + 1, cs =>
    match item (skip cs) with
    | none => none
    | some (a, cs) =>
      match skip cs with
      | [] => none
      | c :: cs =>
        if c = close then some ([a], cs)
        else if c = ',' then (itemsFrom item close n cs).map fun r => (a :: r.1, r.2)
        else none

/-- A list of items behind its opening mark; it may be empty. -/
def listOf? {α : Type} (item : List Char → Option (α × List Char)) (close : Char)
    (cs : List Char) : Option (List α × List Char) :=
  match skip cs with
  | [] => none
  | c :: cs => if c = close then some ([], cs) else itemsFrom item close (cs.length + 1) (c :: cs)

def written? : List Char → Option (String × List Char)
  | '"' :: cs => (writtenFrom .plain cs).map fun r => (String.ofList r.1, r.2)
  | _ => none

/-- A name, a colon and a value. An inner name may be any string. -/
def member? (inner : Bool) (value : List Char → Option (Json × List Char)) (cs : List Char) :
    Option ((String × Json) × List Char) :=
  match (string? cs).or (if inner then written? cs else none) with
  | none => none
  | some (k, cs) =>
    match skip cs with
    | ':' :: cs => (value (skip cs)).map fun r => ((k, r.1), r.2)
    | _ => none

def literal? (word : List Char) (j : Json) (cs : List Char) : Option (Json × List Char) :=
  if word.isPrefixOf cs then some (j, cs.drop word.length) else none

/-- One value at the front, with at most so many arrays and objects around any part of it; an inner
one stands inside of another. -/
def value? (inner : Bool) : Nat → List Char → Option (Json × List Char)
  | _, [] => none
  | depth, c :: cs =>
    if c = '"' then
      match string? (c :: cs) with
      | some r => some (.str r.1, r.2)
      | none => (written? (c :: cs)).map fun r => (.torn r.1, r.2)
    else if c = '[' then
      match depth with
      | 0 => none
      | d + 1 => (listOf? (value? true d) ']' cs).map fun r => (.arr r.1, r.2)
    else if c = '{' then
      match depth with
      | 0 => none
      | d + 1 => (listOf? (member? inner (value? true d)) '}' cs).map fun r => (.obj r.1, r.2)
    else if c = 'n' then literal? ['n', 'u', 'l', 'l'] .null (c :: cs)
    else if c = 't' then literal? ['t', 'r', 'u', 'e'] (.bool true) (c :: cs)
    else if c = 'f' then literal? ['f', 'a', 'l', 's', 'e'] (.bool false) (c :: cs)
    else number? (c :: cs)

/-- The one value of a text that holds nothing else. -/
def ofChars? (depth : Nat) (cs : List Char) : Option Json :=
  match value? false depth (skip cs) with
  | some (j, rest) => if skip rest = [] then some j else none
  | none => none

/-- No nesting is too deep: there is a character for every array and object. -/
def parse? (s : String) : Option Json := ofChars? s.toList.length s.toList

end SessionWatch.Json
