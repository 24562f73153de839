import SessionWatch.Text.Yaml.Scalar

/-!
Scalars in a block: the lines behind a header that are indented alike, either as they stand or
folded into paragraphs.
-/

namespace SessionWatch.Yaml

namespace Block

/-- What stays of the line breaks behind the last line: none, one or all of them. -/
inductive Chomping where
  | strip
  | clip
  | keep
  deriving DecidableEq

def chomping : List Char → Chomping × List Char
  | '-' :: cs => (.strip, cs)
  | '+' :: cs => (.keep, cs)
  | cs => (.clip, cs)

/-- By how much the lines are indented; without a digit, nothing is said. -/
def indent? : List Char → Option (Nat × List Char)
  | [] => some (0, [])
  | c :: cs =>
    if c = '0' then none else some (if c.isDigit then (c.toNat - 48, cs) else (0, c :: cs))

/-- A header behind its mark and the input on the next line. Its parts come in any order. -/
def header? (cs : List Char) : Option (Chomping × Nat × List Char) :=
  let (chomp, cs) := chomping cs
  match indent? cs with
  | none => none
  | some (indent, cs) =>
    let (chomp, cs) := if chomp = .clip then chomping cs else (chomp, cs)
    (lineEnd? cs).map fun rest => (chomp, indent, rest)

structure Seam where
  /-- Whether the first of them ends with a line break. -/
  ended : Bool := false
  /-- Whether the first of them begins with a blank. -/
  blank : Bool := false
  empty : Nat := 0

/-- Line breaks as they are read. Between two lines that do not begin with a blank, folding
drops one of them, or makes it a space if it is the only one. -/
def Seam.text (s : Seam) (folded blank : Bool) : List Char :=
  let first :=
    if !s.ended then []
    else if folded && !s.blank && !blank then (if s.empty = 0 then [' '] else [])
    else ['\n']
  first ++ List.replicate s.empty '\n'

def Seam.tail (s : Seam) (chomp : Chomping) : List Char :=
  let first := if s.ended then ['\n'] else []
  match chomp with
  | .strip => []
  | .clip => first
  | .keep => first ++ List.replicate s.empty '\n'

/-- Go over empty lines and the indentation of the next one, or of any width where none is
given. Found are the widest indentation, the number of empty lines and the place behind them. -/
def gap? (indent widest empty : Nat) (k : Cursor) : List Char → Option (Nat × Nat × Cursor)
  | [] => some (max widest k.column, empty, { k with rest := [] })
  | c :: cs =>
    let inside := indent = 0 || k.column < indent
    if c = ' ' && inside then gap? indent widest empty { k with column := k.column + 1 } cs
    else if c = '\t' && inside then none
    else if c = '\n' then
      gap? indent (max widest k.column) (empty + 1) { k with line := k.line + 1, column := 0 } cs
    else some (max widest k.column, empty, { k with rest := c :: cs })

/-- The lines from a place on, what lies behind the last one, and the place there. -/
def lines? (folded : Bool) (indent : Nat) :
    Nat → Seam → Cursor → Option (List Char × Seam × Cursor)
  | 0, s, k => some ([], s, k)
  | n + 1, s, k =>
    if k.column ≠ indent || k.rest.isEmpty then some ([], s, k)
    else
      let line := k.rest.takeWhile (· ≠ '\n')
      let blank := line.head?.any isBlank
      let text := s.text folded blank ++ line
      match k.rest.drop line.length with
      | [] => some (text, {}, { k with rest := [], column := k.column + line.length })
      | _ :: rest =>
        match gap? indent 0 0 { k with line := k.line + 1, column := 0 } rest with
        | none => none
        | some (_, empty, k) =>
          (lines? folded indent n ⟨true, blank, empty⟩ k).map fun r => (text ++ r.1, r.2)

end Block

/-- A scalar in a block behind its mark. The floor is one more than the indentation of the block
around it. Without a width in the header its first line says how far it is indented. -/
def blockScalar? (folded : Bool) (floor : Nat) (k : Cursor) : Option (String × Cursor) := do
  let (chomp, more, rest) ← Block.header? k.rest
  let k := { k with rest, line := k.line + 1, column := 0, fresh := true }
  let given := if more = 0 then 0 else floor - 1 + more
  let (widest, empty, k) ← Block.gap? given 0 0 k rest
  let indent := if given = 0 then max widest (max floor 1) else given
  let (text, seam, k) ← Block.lines? folded indent (k.rest.length + 1) { empty } k
  pure (String.ofList (text ++ seam.tail chomp), k)

end SessionWatch.Yaml
