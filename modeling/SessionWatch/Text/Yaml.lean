import SessionWatch.Text.Yaml.Block

/-!
Reading YAML text: scalars, and lists and maps in blocks or in brackets. Blocks are told apart
by their indentation. A node may be given a name, and the name may stand for it later on. Tags
are not read.
-/

namespace SessionWatch.Yaml

namespace Cursor

/-- Go over blanks, comments and line breaks. Where a block may begin, a tab is no blank. -/
def skipFrom (flow comment : Bool) (k : Cursor) : List Char → Cursor
  | [] => { k with rest := [] }
  | c :: cs =>
    let next := { k with column := k.column + 1 }
    if c = '\n' then
      skipFrom flow false { k with line := k.line + 1, column := 0, fresh := k.fresh || !flow } cs
    else if comment then skipFrom flow true next cs
    else if c = ' ' || (c = '\t' && (flow || !k.fresh)) then skipFrom flow false next cs
    else if c = '#' then skipFrom flow true next cs
    else { k with rest := c :: cs }

def skip (flow : Bool) (k : Cursor) : Cursor := skipFrom flow false k k.rest

def skipBlanks (k : Cursor) : Cursor :=
  let rest := k.rest.dropWhile isBlank
  { k with rest, column := k.column + (k.rest.length - rest.length) }

/-- Go over some marks, behind which no block begins. -/
def pass (k : Cursor) (marks : Nat) : Cursor :=
  { k with rest := k.rest.drop marks, column := k.column + marks, fresh := false }

def atEnd (k : Cursor) : Bool :=
  k.rest.isEmpty || (k.column = 0 && (isMarker k.rest || k.rest.head? = some '%'))

/-- Whether a mark stands here by itself, which has a meaning for blocks. -/
def atMark (mark : Char) (k : Cursor) : Bool :=
  match k.rest with
  | c :: cs => c = mark && atBlank cs
  | [] => false

/-- Whether punctuation stands here in place of a node. -/
def atGap (flow : Bool) (k : Cursor) : Bool :=
  if flow then [':', ',', ']', '}'].any (k.rest.head? = some ·) else k.atMark ':'

/-- The longest key, in characters. -/
def keyLimit : Nat := 1024

/-- The place behind the colon of a key from one place to another. A key with its colon stands
on one line. -/
def keyEnd? (flow : Bool) (start stop : Cursor) : Option Cursor :=
  let k := stop.skipBlanks
  match k.rest with
  | ':' :: cs =>
    if (flow || atBlank cs) && start.line = k.line && k.column - start.column ≤ keyLimit then
      some (k.pass 1)
    else none
  | _ => none

/-- Give a node a name that no other one in the document has. -/
def define? (k : Cursor) (name : String) (node : Yaml) : Option Cursor :=
  if (k.named.lookup name).isSome then none else some { k with named := (name, node) :: k.named }

end Cursor

def isNameChar (c : Char) : Bool := c.isAlphanum || c = '_' || c = '-'

def name? (k : Cursor) : Option (String × Cursor) :=
  let name := k.rest.takeWhile isNameChar
  let rest := k.rest.drop name.length
  let closed := atBlank rest ||
    ['?', ':', ',', ']', '}', '%', '@', Char.ofNat 96].any (rest.head? = some ·)
  if name.isEmpty || !closed then none
  else some (String.ofList name, { k with rest, column := k.column + name.length })

/-- A name that stands on a line by itself in front of its node. -/
def nameLine? (k : Cursor) : Option (String × Cursor) :=
  match k.rest with
  | '&' :: _ => (name? (k.pass 1)).filter fun r => (lineEnd? r.2.rest).isSome
  | _ => none

mutual

/-- A node inside brackets, or one that begins with a bracket or is a scalar. It may have a name,
or be given by one. -/
def node? (flow : Bool) (floor : Nat) : Nat → Cursor → Option (Yaml × Cursor)
  | 0, _ => none
  | n + 1, k =>
    match k.rest with
    | '*' :: _ => do
      let (name, e) ← name? (k.pass 1)
      let node ← e.named.lookup name
      pure (node, e)
    | '&' :: _ => do
      let (name, e) ← name? (k.pass 1)
      let e := if flow then e.skip true else e.skipBlanks
      let (node, e) ← if e.atGap flow then pure (absent, e) else content? flow floor n e
      let e ← e.define? name node
      pure (node, e)
    | _ => content? flow floor n k

def content? (flow : Bool) (floor : Nat) : Nat → Cursor → Option (Yaml × Cursor)
  | 0, _ => none
  | n + 1, k =>
    match k.rest with
    | '[' :: _ => (items? floor n (k.pass 1)).map fun r => (.list r.1, r.2)
    | '{' :: _ => (members? floor n (k.pass 1)).map fun r => (.map r.1, r.2)
    | '"' :: _ => (quoted? true (k.pass 1)).map fun r => (.scalar r.1 false, r.2)
    | '\'' :: _ => (quoted? false (k.pass 1)).map fun r => (.scalar r.1 false, r.2)
    | c :: rest =>
      if !flow && (c = '|' || c = '>') then
        (blockScalar? (c = '>') floor (k.pass 1)).map fun r => (.scalar r.1 false, r.2)
      else if Plain.starts flow (c :: rest) then
        (plain? flow floor k).map fun r => (.scalar r.1 true, r.2)
      else none
    | [] => none

def flowValue? (floor : Nat) : Nat → Cursor → Option (Yaml × Cursor)
  | 0, _ => none
  | n + 1, k =>
    let k := k.skip true
    match k.rest with
    | ',' :: _ | ']' :: _ | '}' :: _ => some (absent, k)
    | _ => node? true floor n k

/-- A key that is marked as such inside brackets, behind its mark, with its value. The value may
be missing, and in a map so may the key. -/
def marked? (floor : Nat) (inMap : Bool) : Nat → Cursor → Option ((Yaml × Yaml) × Cursor)
  | 0, _ => none
  | n + 1, k => do
    let k := k.skip true
    let (key, e) ← if inMap && k.atGap true then pure (absent, k) else node? true floor n k
    let e := e.skip true
    match e.rest with
    | ':' :: _ => do
      let (value, e) ← flowValue? floor n (e.pass 1)
      pure ((key, value), e)
    | _ => pure ((key, absent), e)

/-- The items of a list in brackets behind its opening bracket or a comma. A key with a value
is a map of its own there. -/
def items? (floor : Nat) : Nat → Cursor → Option (List Yaml × Cursor)
  | 0, _ => none
  | n + 1, k =>
    let k := k.skip true
    match k.rest with
    | ']' :: _ => some ([], k.pass 1)
    | c :: _ => do
      let (item, e) ←
        if c = '?' then (marked? floor false n (k.pass 1)).map fun r => (Yaml.map [r.1], r.2)
        else do
          let (node, e) ← node? true floor n k
          match Cursor.keyEnd? true k e with
          | some v => do
            let (value, e) ← flowValue? floor n v
            pure (Yaml.map [(node, value)], e)
          | none => pure (node, e)
      let e := e.skip true
      match e.rest with
      | ',' :: _ => do
        let (more, e) ← items? floor n (e.pass 1)
        pure (item :: more, e)
      | ']' :: _ => pure ([item], e.pass 1)
      | _ => none
    | [] => none

/-- The entries of a map in brackets behind its opening bracket or a comma. A value may be
missing. -/
def members? (floor : Nat) : Nat → Cursor → Option (List (Yaml × Yaml) × Cursor)
  | 0, _ => none
  | n + 1, k =>
    let k := k.skip true
    match k.rest with
    | '}' :: _ => some ([], k.pass 1)
    | c :: _ => do
      let (entry, e) ←
        if c = '?' then marked? floor true n (k.pass 1)
        else do
          let (key, e) ← node? true floor n k
          let (value, e) ← match Cursor.keyEnd? true k e with
            | some v => flowValue? floor n v
            | none => pure (absent, e)
          pure ((key, value), e)
      let e := e.skip true
      match e.rest with
      | ',' :: _ => do
        let (more, e) ← members? floor n (e.pass 1)
        pure (entry :: more, e)
      | '}' :: _ => pure ([entry], e.pass 1)
      | _ => none
    | [] => none

end

mutual

/-- A node in a block. What stands left of the floor does not belong to it, except that the
dashes of a list may stand right under the key of the map that the list is a value of. A node
that is named already has no other name, but the keys in it may have names. -/
def block? (floor : Nat) (underKey named : Bool) : Nat → Cursor → Option (Yaml × Cursor)
  | 0, _ => none
  | n + 1, start =>
    let k := start.skip false
    if k.atEnd then some (absent, k)
    else if k.column < floor then
      if underKey && k.atMark '-' && k.column + 1 = floor then
        (dashes? k.column true n (k.pass 1)).map fun r => (.list r.1, r.2)
      else some (absent, k)
    else if k.atMark '-' then
      if k.fresh then (dashes? k.column false n (k.pass 1)).map fun r => (.list r.1, r.2)
      else none
    else if k.atMark '?' then
      if k.fresh then (entries? k.column n k).map fun r => (.map r.1, r.2) else none
    else match nameLine? k with
      | some (name, e) => do
        if named then none
        let (node, e) ← block? floor underKey true n e
        let e ← e.define? name node
        pure (node, e)
      | none => do
        let (node, e) ← node? false floor n k
        match Cursor.keyEnd? false k e with
        | some v =>
          if k.fresh then (values? k.column node n v).map fun r => (.map r.1, r.2) else none
        | none =>
          if named && (k.rest.head? = some '&' || k.rest.head? = some '*') then none
          pure (node, e)
  termination_by structural n => n

def dashes? (column : Nat) (underKey : Bool) : Nat → Cursor → Option (List Yaml × Cursor)
  | 0, _ => none
  | n + 1, k => do
    let (item, e) ← block? (column + 1) false false n { k with fresh := true }
    let e := e.skip false
    if e.atEnd || e.column < column then pure ([item], e)
    else if e.column = column then
      if e.atMark '-' then do
        let (more, e) ← dashes? column underKey n (e.pass 1)
        pure (item :: more, e)
      else if underKey then pure ([item], e)
      else none
    else none
  termination_by structural n => n

/-- The entries of a map in a block behind the colon of a key. -/
def values? (column : Nat) (key : Yaml) : Nat → Cursor → Option (List (Yaml × Yaml) × Cursor)
  | 0, _ => none
  | n + 1, k => do
    let (value, e) ← block? (column + 1) true false n k
    let (more, e) ← entries? column n e
    pure ((key, value) :: more, e)
  termination_by structural n => n

/-- The entries of a map in a block behind a value. A key that is marked as such may be a node
of any kind, and may have no value. -/
def entries? (column : Nat) : Nat → Cursor → Option (List (Yaml × Yaml) × Cursor)
  | 0, _ => none
  | n + 1, start =>
    let k := start.skip false
    if k.atEnd || k.column < column then some ([], k)
    else if k.column ≠ column || !k.fresh then none
    else if k.atMark '?' then do
      let (key, e) ← block? (column + 1) true false n { k.pass 1 with fresh := true }
      let e := e.skip false
      if e.column = column && e.fresh && e.atMark ':' then
        values? column key n { e.pass 1 with fresh := true }
      else do
        let (more, e) ← entries? column n e
        pure ((key, absent) :: more, e)
    else do
      let (key, stop) ← node? false (column + 1) n k
      let v ← Cursor.keyEnd? false k stop
      values? column key n v
  termination_by structural n => n

end

/-- The number of a version has nine digits at most. -/
def number? (cs : List Char) : Option (Nat × List Char) :=
  let digits := cs.takeWhile Char.isDigit
  if digits.isEmpty || 9 < digits.length then none
  else some (digits.foldl (fun n c => n * 10 + (c.toNat - 48)) 0, cs.drop digits.length)

/-- A line that names the version of the language, 1.1 or 1.2, and the input behind it. -/
def version? : List Char → Option (List Char)
  | '%' :: 'Y' :: 'A' :: 'M' :: 'L' :: c :: cs =>
    if !isBlank c then none
    else match number? (cs.dropWhile isBlank) with
      | some (1, '.' :: cs) =>
        match number? cs with
        | some (minor, cs) => if minor = 1 || minor = 2 then lineEnd? cs else none
        | none => none
      | _ => none
  | _ => none

namespace Cursor

/-- The place behind the marker of a document. Only the first document can do without, unless a
version is named. -/
def begin? (first : Bool) (k : Cursor) : Option Cursor :=
  let start (k : Cursor) :=
    if k.column = 0 && isMarker k.rest && k.rest.head? = some '-' then some (k.pass 3) else none
  if k.column = 0 && k.rest.head? = some '%' then do
    let rest ← version? k.rest
    start (skip false { k with rest, line := k.line + 1, column := 0, fresh := true })
  else if k.atEnd then start k
  else if first then some k
  else none

end Cursor

def documents? (limit : Nat) (first : Bool) : Nat → Cursor → Option (List Yaml)
  | 0, _ => none
  | n + 1, start =>
    let k := start.skip false
    if k.rest.isEmpty then some []
    else if !first && k.atEnd && k.rest.head? = some '.' then documents? limit false n (k.pass 3)
    else do
      let k ← k.begin? first
      let (root, e) ← block? 0 false false limit { k with named := [] }
      let more ← documents? limit false n e
      pure (root :: more)

def isPrintable (c : Char) : Bool :=
  let n := c.toNat
  n = 9 || n = 10 || n = 13 || (32 ≤ n && n ≤ 126) || n = 0x85 || (0xA0 ≤ n && n ≤ 0xD7FF) ||
    (0xE000 ≤ n && n ≤ 0xFFFD && n ≠ 0xFEFF) || 0x10000 ≤ n

def unifyBreaks : List Char → List Char
  | [] => []
  | '\r' :: '\n' :: cs => '\n' :: unifyBreaks cs
  | c :: cs => (if c = '\r' || c.toNat = 0x85 then '\n' else c) :: unifyBreaks cs

/-- The documents of a text; a byte order mark may stand before them. -/
def parse? (text : String) : Option (List Yaml) :=
  let cs := text.toList
  let cs := if cs.head? = some (Char.ofNat 0xFEFF) then cs.tail else cs
  if cs.all isPrintable then
    let cs := unifyBreaks cs
    documents? (4 * cs.length + 8) true (cs.length + 2) { rest := cs }
  else none

end SessionWatch.Yaml
