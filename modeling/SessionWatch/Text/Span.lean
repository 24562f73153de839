import SessionWatch.Text.Decimal

/-!
A length of time, kept in milliseconds, shown in the largest unit it fills.
-/

namespace SessionWatch.Span

/-- The digits of thousandths without the zeros at their end. -/
def fraction (ms : Nat) : List Char :=
  let digits := Decimal.ofNat (1000 + ms % 1000)
  (digits.tail.reverse.dropWhile (· = '0')).reverse

def text (ms : Nat) : String :=
  if ms = 0 then "0ns"
  else if ms < 1000 then Decimal.textOfNat ms ++ "ms"
  else match fraction ms with
    | [] => Decimal.textOfNat (ms / 1000) ++ "s"
    | ds => Decimal.textOfNat (ms / 1000) ++ "." ++ String.ofList ds ++ "s"

example : text 60 = "60ms" ∧ text 5000 = "5s" ∧ text 1250 = "1.25s" ∧ text 1005 = "1.005s" := by
  decide +kernel

end SessionWatch.Span
