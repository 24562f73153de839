/-!
What YAML text says, and its scalars: plain ones, which end where punctuation begins, and quoted
ones. A scalar may go over several lines; a single line break in it is read as a space, and each
further one as itself.
-/

namespace SessionWatch

inductive Yaml where
  | scalar (text : String) (plain : Bool)
  | list (items : List Yaml)
  | map (entries : List (Yaml × Yaml))
  deriving Inhabited

namespace Yaml

/-- What stands where nothing is written. -/
def absent : Yaml := .scalar "" true

structure Cursor where
  rest : List Char
  line : Nat := 0
  column : Nat := 0
  /-- Whether a block may begin here: nothing but indentation or dashes stands before it. -/
  fresh : Bool := true
  /-- What goes by a name so far. -/
  named : List (String × Yaml) := []

def isBlank (c : Char) : Bool := c = ' ' || c = '\t'

/-- Whether the input is at a blank, at the end of a line, or at its own end. -/
def atBlank : List Char → Bool
  | [] => true
  | c :: _ => isBlank c || c = '\n'

def isMarker : List Char → Bool
  | '-' :: '-' :: '-' :: cs => atBlank cs
  | '.' :: '.' :: '.' :: cs => atBlank cs
  | _ => false

def lineEnd? (cs : List Char) : Option (List Char) :=
  let cs := cs.dropWhile isBlank
  let cs := if cs.head? = some '#' then cs.dropWhile (· ≠ '\n') else cs
  match cs with
  | [] => some []
  | '\n' :: cs => some cs
  | _ => none

/-- Blanks and line breaks between two words of a scalar. -/
structure Gap where
  blanks : List Char := []
  breaks : Nat := 0
  /-- Whether its first line break is escaped. -/
  escaped : Bool := false

def Gap.text (g : Gap) : List Char :=
  if g.escaped then List.replicate g.breaks '\n'
  else match g.breaks with
    | 0 => g.blanks
    | 1 => [' ']
    | n + 2 => List.replicate (n + 1) '\n'

/-- Blanks count only on the line of the word before them. -/
def Gap.blank (g : Gap) (c : Char) : Gap :=
  if g.breaks = 0 && !g.escaped then { g with blanks := g.blanks ++ [c] } else g

def Gap.newline (g : Gap) : Gap := { g with breaks := g.breaks + 1 }

namespace Plain

/-- The marks that have a meaning at the start of a scalar. -/
def indicators : List Char :=
  ['-', '?', ':', ',', '[', ']', '{', '}', '#', '&', '*', '!', '|', '>', '\'', '"', '%', '@',
    Char.ofNat 96]

/-- The marks that end a plain scalar inside brackets. -/
def brackets : List Char := [',', '[', ']', '{', '}']

def starts (flow : Bool) : List Char → Bool
  | [] => false
  | c :: cs =>
    (!atBlank [c] && !indicators.contains c) ||
      ((c = '-' || (!flow && (c = '?' || c = ':'))) && !atBlank cs)

/-- The characters up to the next blank or punctuation mark, and the input there. Inside
brackets a colon may not touch a bracket. -/
def word? (flow : Bool) : List Char → Option (List Char × List Char)
  | [] => some ([], [])
  | c :: cs =>
    if isBlank c || c = '\n' then some ([], c :: cs)
    else if c = ':' && flow && cs.head?.any fun d => d = '?' || brackets.contains d then none
    else if c = ':' && atBlank cs then some ([], c :: cs)
    else if flow && brackets.contains c then some ([], c :: cs)
    else match word? flow cs with
      | some (w, rest) => some (c :: w, rest)
      | none => none

/-- Blanks and line breaks, and the place behind them. A tab may not stand in for the
indentation of a line. -/
def gap? (floor : Nat) (g : Gap) (k : Cursor) : List Char → Option (Gap × Cursor)
  | [] => some (g, { k with rest := [] })
  | c :: cs =>
    if isBlank c then
      if c = '\t' && g.breaks ≠ 0 && k.column < floor then none
      else gap? floor (g.blank c) { k with column := k.column + 1 } cs
    else if c = '\n' then
      gap? floor g.newline { k with line := k.line + 1, column := 0, fresh := true } cs
    else some (g, { k with rest := c :: cs })

/-- Words up to one that belongs to something else: behind a comment mark, at a document
marker, or on a line that is indented less than the scalar has to be. -/
def words? (flow : Bool) (floor : Nat) : Nat → Gap → Cursor → Option (List Char × Cursor)
  | 0, _, k => some ([], k)
  | n + 1, g, k =>
    if (k.column = 0 && isMarker k.rest) || k.rest.head? = some '#' then some ([], k)
    else
      match word? flow k.rest with
      | none => none
      | some ([], _) => some ([], k)
      | some (w, rest) =>
        let k := { k with rest, column := k.column + w.length, fresh := false }
        match gap? floor {} k rest with
        | none => none
        | some (next, k') =>
          if rest.isEmpty || !atBlank rest || (!flow && next.breaks ≠ 0 && k'.column < floor) then
            some (g.text ++ w, k')
          else match words? flow floor n next k' with
            | none => none
            | some (more, k) => some (g.text ++ (w ++ more), k)

end Plain

/-- A plain scalar; outside of brackets its lines are indented to a floor. -/
def plain? (flow : Bool) (floor : Nat) (k : Cursor) : Option (String × Cursor) :=
  (Plain.words? flow floor (k.rest.length + 1) {} k).map fun r => (String.ofList r.1, r.2)

namespace Quoted

inductive Mode where
  | text
  /-- Behind a quote that may be the first of two. -/
  | quote
  | escape
  | hex (left : Nat) (value : Nat)

def hexValue? (c : Char) : Option Nat :=
  if c.isDigit then some (c.toNat - 48)
  else if 'a' ≤ c ∧ c ≤ 'f' then some (c.toNat - 87)
  else if 'A' ≤ c ∧ c ≤ 'F' then some (c.toNat - 55)
  else none

def escaped? (c : Char) : Option Char :=
  match c with
  | '0' => some (Char.ofNat 0)
  | 'a' => some (Char.ofNat 7)
  | 'b' => some (Char.ofNat 8)
  | 't' | '\t' => some '\t'
  | 'n' => some '\n'
  | 'v' => some (Char.ofNat 11)
  | 'f' => some (Char.ofNat 12)
  | 'r' => some '\r'
  | 'e' => some (Char.ofNat 27)
  | ' ' | '"' | '/' | '\\' => some c
  | 'N' => some (Char.ofNat 0x85)
  | '_' => some (Char.ofNat 0xA0)
  | 'L' => some (Char.ofNat 0x2028)
  | 'P' => some (Char.ofNat 0x2029)
  | _ => none

def digits? (c : Char) : Option Nat :=
  match c with
  | 'x' => some 2
  | 'u' => some 4
  | 'U' => some 8
  | _ => none

def emit (s : List Char) : Option (List Char × Cursor) → Option (List Char × Cursor)
  | some (t, k) => some (s ++ t, k)
  | none => none

/-- The text of a quoted scalar and the place behind its closing quote. Double quotes know
escapes, single quotes are doubled. -/
def read? (double : Bool) : Mode → Gap → Cursor → List Char → Option (List Char × Cursor)
  | .quote, _, k, [] => some ([], { k with rest := [] })
  | _, _, _, [] => none
  | .quote, _, k, c :: cs =>
    let k := { k with column := k.column + 1 }
    if c = '\'' then emit ['\''] (read? double .text {} k cs)
    else some ([], { k with rest := c :: cs, column := k.column - 1 })
  | .escape, g, k, c :: cs =>
    let next := { k with column := k.column + 1 }
    if c = '\n' then
      read? double .text { escaped := true } { k with line := k.line + 1, column := 0 } cs
    else match escaped? c, digits? c with
      | some d, _ => emit [d] (read? double .text {} next cs)
      | none, some n => read? double (.hex n 0) g next cs
      | none, none => none
  | .hex left value, g, k, c :: cs =>
    let next := { k with column := k.column + 1 }
    match hexValue? c with
    | none => none
    | some d =>
      let value := value * 16 + d
      if 1 < left then read? double (.hex (left - 1) value) g next cs
      else if value.isValidChar then emit [Char.ofNat value] (read? double .text {} next cs)
      else none
  | .text, g, k, c :: cs =>
    let next := { k with column := k.column + 1 }
    if k.column = 0 && isMarker (c :: cs) then none
    else if isBlank c then read? double .text (g.blank c) next cs
    else if c = '\n' then
      read? double .text g.newline { k with line := k.line + 1, column := 0 } cs
    else if double && c = '"' then some (g.text, { next with rest := cs })
    else if double && c = '\\' then emit g.text (read? double .escape {} next cs)
    else if !double && c = '\'' then emit g.text (read? double .quote {} next cs)
    else emit (g.text ++ [c]) (read? double .text {} next cs)

end Quoted

def quoted? (double : Bool) (k : Cursor) : Option (String × Cursor) :=
  (Quoted.read? double .text {} { k with fresh := false } k.rest).map fun r =>
    (String.ofList r.1, r.2)

end Yaml

end SessionWatch
