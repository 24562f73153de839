/-!
Base64 with padding: four letters for three bytes. Only the canonical text of some bytes is
read.
-/

namespace SessionWatch.Base64

def value? (c : Char) : Option Nat :=
  if 'A' ≤ c ∧ c ≤ 'Z' then some (c.toNat - 65)
  else if 'a' ≤ c ∧ c ≤ 'z' then some (c.toNat - 71)
  else if '0' ≤ c ∧ c ≤ '9' then some (c.toNat + 4)
  else if c = '+' then some 62
  else if c = '/' then some 63
  else none

/-- The bytes of the last four letters, of which one or two may be padding. -/
def tail? (a b : Nat) (c d : Char) : Option (List Nat) :=
  if c = '=' && d = '=' then if b % 16 = 0 then some [a * 4 + b / 16] else none
  else match value? c with
    | none => none
    | some c =>
      if d = '=' then if c % 4 = 0 then some [a * 4 + b / 16, b % 16 * 16 + c / 4] else none
      else (value? d).map fun d => [a * 4 + b / 16, b % 16 * 16 + c / 4, c % 4 * 64 + d]

def bytes? : List Char → Option (List Nat)
  | [] => some []
  | a :: b :: c :: d :: rest =>
    match value? a, value? b with
    | some a, some b =>
      match tail? a b c d with
      | none => none
      | some bs =>
        if rest.isEmpty then some bs
        else if bs.length = 3 then (bytes? rest).map fun more => bs ++ more
        else none
    | _, _ => none
  | _ => none

example : bytes? "Zm9v".toList = some [102, 111, 111] ∧ bytes? "Zg==".toList = some [102] ∧
    bytes? "Zh==".toList = none := by
  decide +kernel

end SessionWatch.Base64
