/-!
Whole numbers in decimal: written without leading zeros, read with any. What is written is
read back.
-/

namespace SessionWatch.Decimal

def ofNat (n : Nat) : List Char := Nat.toDigits 10 n

/-- One digit or more and nothing else. -/
def toNat? (cs : List Char) : Option Nat :=
  if cs ≠ [] ∧ cs.all Char.isDigit then some (Nat.ofDigitChars 10 cs 0) else none

def ofInt : Int → List Char
  | .ofNat n => ofNat n
  | .negSucc n => '-' :: ofNat (n + 1)

def toInt? : List Char → Option Int
  | '-' :: cs => (toNat? cs).map fun n => -(n : Int)
  | '+' :: cs => (toNat? cs).map Int.ofNat
  | cs => (toNat? cs).map Int.ofNat

def textOfNat (n : Nat) : String := String.ofList (ofNat n)

def textOfInt (i : Int) : String := String.ofList (ofInt i)

def toInt64? (cs : List Char) : Option Int64 :=
  match toInt? cs with
  | some i => if Int64.minValue.toInt ≤ i ∧ i ≤ Int64.maxValue.toInt then some (.ofInt i) else none
  | none => none

/-- Digits behind an optional plus sign, for a number below the bound. -/
def below? (bound : Nat) (cs : List Char) : Option Nat :=
  match toNat? (if cs.head? = some '+' then cs.tail else cs) with
  | some n => if n < bound then some n else none
  | none => none

theorem ofNat_ne_nil (n : Nat) : ofNat n ≠ [] := by
  unfold ofNat
  rw [Nat.toDigits_eq_if (by decide)]
  split <;> simp

theorem isDigit_of_mem_ofNat {n : Nat} {c : Char} (h : c ∈ ofNat n) : c.isDigit = true :=
  Nat.isDigit_of_mem_toDigits (by decide) (by decide) h

@[simp] theorem toNat?_ofNat (n : Nat) : toNat? (ofNat n) = some n := by
  have h : (ofNat n).all Char.isDigit = true :=
    List.all_eq_true.2 fun _ hc => isDigit_of_mem_ofNat hc
  simp only [toNat?, ne_eq, ofNat_ne_nil, not_false_eq_true, h, and_self, if_true]
  exact congrArg some (Nat.ofDigitChars_toDigits (by decide) (by decide))

theorem ofNat_injective {m n : Nat} (h : ofNat m = ofNat n) : m = n := by
  have := congrArg toNat? h
  simpa using this

theorem toInt?_of_isDigit {c : Char} {cs : List Char} (h : c.isDigit = true) :
    toInt? (c :: cs) = (toNat? (c :: cs)).map Int.ofNat := by
  have h₁ : c ≠ '-' := fun he => absurd h (he ▸ by decide)
  have h₂ : c ≠ '+' := fun he => absurd h (he ▸ by decide)
  unfold toInt?
  split <;> simp_all

@[simp] theorem toInt?_ofInt (i : Int) : toInt? (ofInt i) = some i := by
  cases i with
  | ofNat n =>
    show toInt? (ofNat n) = some (Int.ofNat n)
    have hn := ofNat_ne_nil n
    cases hcs : ofNat n with
    | nil => exact absurd hcs hn
    | cons c cs =>
      have hc : c.isDigit = true := isDigit_of_mem_ofNat (n := n) (hcs ▸ List.mem_cons_self)
      rw [toInt?_of_isDigit hc, ← hcs, toNat?_ofNat]
      rfl
  | negSucc n => simp [toInt?, ofInt, Int.negSucc_eq]

@[simp] theorem toInt64?_ofInt (t : Int64) : toInt64? (ofInt t.toInt) = some t := by
  simp only [toInt64?, toInt?_ofInt]
  rw [if_pos ⟨Int64.minValue_le_toInt t, Int64.toInt_le t⟩, Int64.ofInt_toInt]

end SessionWatch.Decimal
