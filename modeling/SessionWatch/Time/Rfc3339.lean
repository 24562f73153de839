import SessionWatch.Text.Decimal

/-!
Whether a text is a point in time: a date, a time of day and an offset from universal time.
Blanks may stand between the parts, and leading zeros may be missing.
-/

namespace SessionWatch.Rfc3339

/-- The blanks of the Unicode standard. -/
def isBlank (c : Char) : Bool :=
  let n := c.toNat
  (9 ≤ n && n ≤ 13) || n == 32 || n == 0x85 || n == 0xA0 || n == 0x1680 ||
    (0x2000 ≤ n && n ≤ 0x200A) || n == 0x2028 || n == 0x2029 || n == 0x202F || n == 0x205F ||
    n == 0x3000

def skip (cs : List Char) : List Char := cs.dropWhile isBlank

/-- A number of at least one digit and at most so many. -/
def number? (width : Nat) (cs : List Char) : Option (Nat × List Char) :=
  let ds := (cs.take width).takeWhile Char.isDigit
  (Decimal.toNat? ds).map fun n => (n, cs.drop ds.length)

def field? (width : Nat) (cs : List Char) : Option (Nat × List Char) := number? width (skip cs)

/-- Four digits, or any number of them behind a sign. -/
def year? (cs : List Char) : Option (Int × List Char) :=
  match skip cs with
  | '-' :: cs => (number? cs.length cs).map fun r => (-(r.1 : Int), r.2)
  | '+' :: cs => (number? cs.length cs).map fun r => ((r.1 : Int), r.2)
  | cs => (number? 4 cs).map fun r => ((r.1 : Int), r.2)

def mark? (c : Char) (cs : List Char) : Option (List Char) :=
  match skip cs with
  | d :: cs => if d = c then some cs else none
  | [] => none

def isLeap (y : Int) : Bool := y % 4 == 0 && (y % 100 != 0 || y % 400 == 0)

def daysIn (y : Int) (month : Nat) : Nat :=
  match month with
  | 2 => if isLeap y then 29 else 28
  | 4 | 6 | 9 | 11 => 30
  | _ => 31

/-- The years that a point in time can have. -/
def inRange (y : Int) : Bool := -262143 ≤ y && y ≤ 262142

/-- The input behind a date that is in the calendar. -/
def date? (cs : List Char) : Option (List Char) := do
  let (y, cs) ← year? cs
  let cs ← mark? '-' cs
  let (month, cs) ← field? 2 cs
  let cs ← mark? '-' cs
  let (day, cs) ← field? 2 cs
  if inRange y && 1 ≤ month && month ≤ 12 && 1 ≤ day && day ≤ daysIn y month then some cs else none

/-- A point and digits, of which nine count; or nothing. -/
def fraction? : List Char → Option (List Char)
  | '.' :: cs => (number? 9 cs).map fun r => r.2.dropWhile Char.isDigit
  | cs => some cs

/-- The input behind a time of day; a minute may have a sixty-first second. -/
def timeOfDay? (cs : List Char) : Option (List Char) := do
  let (h, cs) ← field? 2 cs
  let cs ← mark? ':' cs
  let (m, cs) ← field? 2 cs
  let cs ← mark? ':' cs
  let (s, cs) ← field? 2 cs
  let cs ← fraction? cs
  if h < 24 && m < 60 && s ≤ 60 then some (skip cs) else none

/-- Hours and minutes of two digits each behind a sign, less than a day. -/
def signedOffset? : List Char → Option (List Char)
  | sign :: a :: b :: cs =>
    if (sign = '+' ∨ sign = '-' ∨ sign = '−') ∧ a.isDigit ∧ b.isDigit then
      match cs.dropWhile fun c => c = ':' || isBlank c with
      | c :: d :: cs =>
        if '0' ≤ c ∧ c ≤ '5' ∧ d.isDigit ∧ Nat.ofDigitChars 10 [a, b] 0 < 24 then some cs else none
      | _ => none
    else none
  | _ => none

def offset? : List Char → Option (List Char)
  | 'Z' :: cs => some cs
  | 'z' :: cs => some cs
  | a :: b :: c :: cs =>
    if [a, b, c].map Char.toLower = ['u', 't', 'c'] then some cs
    else signedOffset? (a :: b :: c :: cs)
  | _ => none

def isTime (s : String) : Bool :=
  let rest := do
    let cs ← date? s.toList
    let cs ← match cs with
      | c :: cs => if c = 'T' ∨ c = 't' ∨ c = ' ' then some cs else none
      | [] => none
    let cs ← timeOfDay? cs
    offset? cs
  match rest with
  | some cs => (skip cs).isEmpty
  | none => false

example : isTime "2024-01-01T00:00:00Z" = true ∧ isTime "2024-02-30T00:00:00Z" = false ∧
    isTime "2024-01-01T00:00:00+02:00" = true ∧ isTime "2024-01-01" = false := by
  decide +kernel

end SessionWatch.Rfc3339
