import SessionWatch.Text.Decimal

/-!
Addresses of redis servers: a host and a port, or a socket of the file system, with the number
of a database and a user.
-/

namespace SessionWatch.Storage.Redis

inductive Place where
  | host (name : String) (port : Nat)
  | socket (path : String)
  deriving DecidableEq

structure Address where
  place : Place
  database : Int64 := 0
  user : Option String := none
  password : Option String := none
  deriving DecidableEq

namespace Address

def defaultPort : Nat := 6379

def hexValue? (c : Char) : Option Nat :=
  if c.isDigit then some (c.toNat - 48)
  else if 'a' ≤ c ∧ c ≤ 'f' then some (c.toNat - 87)
  else if 'A' ≤ c ∧ c ≤ 'F' then some (c.toNat - 55)
  else none

/-- Bytes with those put in that are written as a percent sign and two digits. -/
def decodePercent : List Char → List UInt8
  | [] => []
  | '%' :: a :: b :: cs =>
    match hexValue? a, hexValue? b with
    | some x, some y => .ofNat (x * 16 + y) :: decodePercent cs
    | _, _ => 37 :: decodePercent (a :: b :: cs)
  | c :: cs => (String.singleton c).toUTF8.toList ++ decodePercent cs
termination_by cs => cs.length

def decode? (cs : List Char) : Option String :=
  String.fromUTF8? ⟨(decodePercent cs).toArray⟩

/-- The text without blanks and control characters at its ends, and without line breaks and
tabs. -/
def clean (text : String) : List Char :=
  let isBlank (c : Char) : Bool := c.toNat ≤ 32
  let cs := (text.toList.dropWhile isBlank).reverse.dropWhile isBlank
  cs.reverse.filter fun c => c ≠ '\n' && c ≠ '\r' && c ≠ '\t'

def scheme? (cs : List Char) : Option (String × List Char) :=
  let isMark (c : Char) : Bool := c.isAlphanum || c = '+' || c = '-' || c = '.'
  match cs.takeWhile isMark, cs.dropWhile isMark with
  | c :: name, ':' :: rest =>
    if c.isAlpha then some (String.ofList ((c :: name).map Char.toLower), rest) else none
  | _, _ => none

def isForbiddenInHost (c : Char) : Bool :=
  c.toNat = 0 || " #/:<>?@[\\]^|".toList.contains c

/-- The name of a host; one in brackets is a number. -/
def host? (cs : List Char) : Option (String × List Char) :=
  match cs with
  | '[' :: cs =>
    match cs.dropWhile (· ≠ ']') with
    | ']' :: rest =>
      let name := cs.takeWhile (· ≠ ']')
      if name ≠ [] && name.all fun c => (hexValue? c).isSome || c = ':' || c = '.' then
        some (String.ofList name, rest)
      else none
    | _ => none
  | cs =>
    let name := cs.takeWhile (· ≠ ':')
    if name = [] || name.any isForbiddenInHost then none
    else some (String.ofList name, cs.dropWhile (· ≠ ':'))

/-- A port behind a colon; without digits it is the usual one. -/
def port? : List Char → Option Nat
  | [] => some defaultPort
  | [':'] => some defaultPort
  | ':' :: ds => (Decimal.toNat? ds).filter (· < UInt16.size)
  | _ => none

/-- The number of a database between slashes; without one it is the first. -/
def database? (path : List Char) : Option Int64 :=
  let cs := (path.dropWhile (· = '/')).reverse.dropWhile (· = '/')
  if cs = [] then some 0 else Decimal.toInt64? cs.reverse

/-- A user and a password before the last at sign, and what follows it. -/
def userInfo? (authority : List Char) :
    Option (Option String × Option String × List Char) :=
  match authority.reverse.dropWhile (· ≠ '@') with
  | [] => some (none, none, authority)
  | _ :: before => do
    let info := before.reverse
    let user ← decode? (info.takeWhile (· ≠ ':'))
    let password ← match info.dropWhile (· ≠ ':') with
      | [] => pure none
      | _ :: cs => (decode? cs).map some
    let rest := (authority.reverse.takeWhile (· ≠ '@')).reverse
    pure (if user = "" then none else some user, password.filter (· ≠ ""), rest)

def server? (cs : List Char) : Option Address := do
  let ends (c : Char) : Bool := c = '/' || c = '?' || c = '#'
  let authority := cs.takeWhile fun c => !ends c
  let path := (cs.dropWhile fun c => !ends c).takeWhile fun c => c ≠ '?' && c ≠ '#'
  let (user, password, place) ← userInfo? authority
  let (name, rest) ← host? place
  let port ← port? rest
  let database ← database? path
  pure ⟨.host name port, database, user, password⟩

def parse? (text : String) : Option Address := do
  let (scheme, rest) ← scheme? (clean text)
  match scheme, rest with
  | "redis", '/' :: '/' :: cs => server? cs
  | "unix", '/' :: '/' :: cs => some { place := .socket (String.ofList cs) }
  | "redis+unix", '/' :: '/' :: cs => some { place := .socket (String.ofList cs) }
  | _, _ => none

/-- What a client sends before anything else: who it is, and which database it wants. -/
def greeting (a : Address) : List (List String) :=
  (match a.password with
    | some password => [["AUTH"] ++ a.user.toList ++ [password]]
    | none => []) ++
  if a.database = 0 then [] else [["SELECT", Decimal.textOfInt a.database.toInt]]

end Address

end SessionWatch.Storage.Redis
