import Mathlib.Tactic
import SessionWatch.Session.Task

/-!
Flat objects are read back. A flat object has only texts and whole numbers under its names; its
rendered text parses to just that object, whatever characters the texts hold, and so every task
payload is read as what was written.
-/

namespace SessionWatch

namespace Decimal

/-- The rest of a text does not go on with the number before it. -/
def EndsNumber (cs : List Char) : Prop :=
  ∀ c ∈ cs.head?, c.isDigit = false ∧ c ≠ '.' ∧ c ≠ 'e' ∧ c ≠ 'E'

theorem head_ofNat_ne_zero {n : ℕ} (hn : n ≠ 0) : (ofNat n).head? ≠ some '0' := by
  induction n using Nat.strong_induction_on with
  | h n ih =>
    unfold ofNat at ih ⊢
    by_cases hlt : n < 10
    · rw [Nat.toDigits_of_lt_base hlt]
      interval_cases n <;> first | exact absurd rfl hn | decide
    · have hdiv : n / 10 ≠ 0 := by omega
      have hih := ih (n / 10) (by omega) hdiv
      rw [Nat.toDigits_of_base_le (by decide) (by omega)]
      cases hd : Nat.toDigits 10 (n / 10) with
      | nil => exact absurd hd Nat.toDigits_ne_nil
      | cons d ds => simpa [hd] using hih

theorem takeWhile_digits {ds cs : List Char} (hds : ds.all Char.isDigit = true)
    (hcs : ∀ c ∈ cs.head?, c.isDigit = false) : (ds ++ cs).takeWhile Char.isDigit = ds := by
  rw [List.takeWhile_append_of_pos (fun c hc => List.all_eq_true.1 hds c hc)]
  cases cs with
  | nil => simp
  | cons c cs => simp [hcs c rfl]

theorem dropWhile_digits {ds cs : List Char} (hds : ds.all Char.isDigit = true)
    (hcs : ∀ c ∈ cs.head?, c.isDigit = false) : (ds ++ cs).dropWhile Char.isDigit = cs := by
  rw [List.dropWhile_append_of_pos (fun c hc => List.all_eq_true.1 hds c hc)]
  cases cs with
  | nil => simp
  | cons c cs => simp [hcs c rfl]

theorem all_isDigit_ofNat (n : ℕ) : (ofNat n).all Char.isDigit = true :=
  List.all_eq_true.2 fun _ hc => isDigit_of_mem_ofNat hc

end Decimal

namespace Json

open Decimal

theorem wholePart?_ofNat (n : ℕ) {cs : List Char} (h : EndsNumber cs) :
    wholePart? (ofNat n ++ cs) = some (ofNat n, cs) := by
  have hcs : ∀ c ∈ cs.head?, c.isDigit = false := fun c hc => (h c hc).1
  have hall := all_isDigit_ofNat n
  unfold wholePart?
  rw [takeWhile_digits hall hcs, dropWhile_digits hall hcs]
  cases hds : ofNat n with
  | nil => exact absurd hds (ofNat_ne_nil n)
  | cons d ds =>
    by_cases hn : n = 0
    · subst hn
      obtain ⟨rfl, rfl⟩ : d = '0' ∧ ds = [] := by simpa [ofNat] using hds.symm
      rfl
    · have hd : d ≠ '0' := by
        rintro rfl
        exact head_ofNat_ne_zero hn (by simp [hds])
      split <;> simp_all

theorem fraction?_of_ends {cs : List Char} (h : EndsNumber cs) : fraction? cs = some ([], cs) := by
  cases cs with
  | nil => rfl
  | cons c cs =>
    have hc : c ≠ '.' := (h c rfl).2.1
    unfold fraction?
    split <;> simp_all

theorem exponent?_of_ends {cs : List Char} (h : EndsNumber cs) : exponent? cs = some ([], cs) := by
  cases cs with
  | nil => rfl
  | cons c cs =>
    obtain ⟨-, -, he, hE⟩ := h c rfl
    simp [exponent?, he, hE]

theorem unsigned?_ofNat (sign : List Char) (n : ℕ) {cs : List Char} (h : EndsNumber cs)
    (hz : sign ++ ofNat n ≠ ['-', '0']) :
    unsigned? sign (ofNat n ++ cs) = (toInt? (sign ++ ofNat n)).map fun i => (.int i, cs) := by
  simp [unsigned?, wholePart?_ofNat n h, fraction?_of_ends h, exponent?_of_ends h, hz]

theorem ofNat_head_isDigit (n : ℕ) : ∃ d ds, ofNat n = d :: ds ∧ d.isDigit = true := by
  cases hds : ofNat n with
  | nil => exact absurd hds (ofNat_ne_nil n)
  | cons d ds => exact ⟨d, ds, rfl, isDigit_of_mem_ofNat (n := n) (by simp [hds])⟩

theorem number?_ofInt (i : ℤ) {cs : List Char} (h : EndsNumber cs) :
    number? (ofInt i ++ cs) = some (.int i, cs) := by
  have hi : toInt? (ofInt i) = some i := toInt?_ofInt i
  cases i with
  | ofNat n =>
    change toInt? (ofNat n) = _ at hi
    obtain ⟨d, ds, hds, hd⟩ := ofNat_head_isDigit n
    have hminus : d ≠ '-' := by rintro rfl; exact absurd hd (by decide)
    have hz : [] ++ ofNat n ≠ ['-', '0'] := by simp [hds, hminus]
    have hu := unsigned?_ofNat [] n h hz
    rw [List.nil_append, hi] at hu
    change number? (ofNat n ++ cs) = _
    rw [hds] at hu ⊢
    unfold number?
    split <;> simp_all
  | negSucc n =>
    change toInt? ('-' :: ofNat (n + 1)) = _ at hi
    have hz : ['-'] ++ ofNat (n + 1) ≠ ['-', '0'] := by
      intro he
      have hzero : ofNat (n + 1) = ['0'] := by simpa using he
      exact head_ofNat_ne_zero (Nat.succ_ne_zero n) (by simp [hzero])
    have hu := unsigned?_ofNat ['-'] (n + 1) h hz
    rw [List.singleton_append, hi] at hu
    exact hu

theorem hexValue?_hexDigit {d : ℕ} (hd : d < 16) : hexValue? (hexDigit d) = some d := by
  interval_cases d <;> decide

theorem stringFrom_control {c : Char} (hc : c.toNat < 32) (cs : List Char) :
    stringFrom .escaped
        (['u', '0', '0', hexDigit (c.toNat / 16), hexDigit (c.toNat % 16)] ++ cs) =
      (stringFrom .plain cs).map fun r => (c :: r.1, r.2) := by
  have hhigh := hexValue?_hexDigit (d := c.toNat / 16) (by omega)
  have hlow := hexValue?_hexDigit (d := c.toNat % 16) (by omega)
  have hzero : hexValue? '0' = some 0 := by decide
  have hvalue : (((0 * 16 + 0) * 16 + 0) * 16 + c.toNat / 16) * 16 + c.toNat % 16 = c.toNat := by
    omega
  have hplain : isHighSurrogate c.toNat = false ∧ isLowSurrogate c.toNat = false := by
    constructor <;> simp [isHighSurrogate, isLowSurrogate] <;> omega
  simp only [stringFrom, List.cons_append, List.nil_append, if_true, hzero, hhigh, hlow, hvalue,
    hplain, Char.ofNat_toNat, Bool.false_eq_true, if_false]
  cases stringFrom .plain cs <;> rfl

theorem stringFrom_mark {c mark : Char} (hu : mark ≠ 'u') (h : unescape? mark = some c)
    (cs : List Char) :
    stringFrom .plain (['\\', mark] ++ cs) =
      (stringFrom .plain cs).map fun r => (c :: r.1, r.2) := by
  cases hcs : stringFrom .plain cs <;> simp [stringFrom, hu, h, hcs] <;> rfl

theorem stringFrom_escape (c : Char) (cs : List Char) :
    stringFrom .plain (escape c ++ cs) =
      (stringFrom .plain cs).map fun r => (c :: r.1, r.2) := by
  have hcode : ∀ n, c.toNat = n → c = Char.ofNat n := fun n hn => by simp [← hn]
  unfold escape
  split_ifs with hquote hslash hb ht hn hf hr hcontrol
  · exact stringFrom_mark (by decide) (by simp [unescape?, hquote]) cs
  · exact stringFrom_mark (by decide) (by simp [unescape?, hslash]) cs
  · exact stringFrom_mark (by decide) (hcode 8 hb ▸ rfl) cs
  · exact stringFrom_mark (by decide) (hcode 9 ht ▸ rfl) cs
  · exact stringFrom_mark (by decide) (hcode 10 hn ▸ rfl) cs
  · exact stringFrom_mark (by decide) (hcode 12 hf ▸ rfl) cs
  · exact stringFrom_mark (by decide) (hcode 13 hr ▸ rfl) cs
  · rw [← stringFrom_control hcontrol cs]
    simp [stringFrom]
  · cases h : stringFrom .plain cs <;> simp [stringFrom, hquote, hslash, hcontrol, h] <;> rfl

theorem stringFrom_quoted (cs rest : List Char) :
    stringFrom .plain (cs.flatMap escape ++ '"' :: rest) = some (cs, rest) := by
  induction cs with
  | nil => simp [stringFrom]
  | cons c cs ih => rw [List.flatMap_cons, List.append_assoc, stringFrom_escape, ih, Option.map_some]

theorem string?_quote (s : String) (rest : List Char) :
    string? (quote s ++ rest) = some (s, rest) := by
  have h := stringFrom_quoted s.toList rest
  simp [string?, quote, h]

def IsScalar : Json → Prop
  | .str _ => True
  | .int _ => True
  | _ => False

theorem skip_of_not_blank {c : Char} {cs : List Char}
    (h : ¬(c = ' ' ∨ c = '\n' ∨ c = '\t' ∨ c = '\r')) : skip (c :: cs) = c :: cs := by
  simp [skip, h]

theorem ofInt_head (i : ℤ) : ∃ c cs, ofInt i = c :: cs ∧ (c = '-' ∨ c.isDigit = true) := by
  cases i with
  | ofNat n =>
    obtain ⟨d, ds, hds, hd⟩ := ofNat_head_isDigit n
    exact ⟨d, ds, hds, .inr hd⟩
  | negSucc n => exact ⟨'-', ofNat (n + 1), rfl, .inl rfl⟩

theorem skip_chars {j : Json} (h : j.IsScalar) (cs : List Char) :
    skip (j.chars ++ cs) = j.chars ++ cs := by
  cases j with
  | str s => exact skip_of_not_blank (by decide)
  | int i =>
    obtain ⟨c, ds, hi, hc⟩ := ofInt_head i
    rw [chars, hi, List.cons_append]
    refine skip_of_not_blank ?_
    rintro (rfl | rfl | rfl | rfl) <;> revert hc <;> decide
  | _ => exact h.elim

theorem value?_str (inner : Bool) (depth : ℕ) (s : String) (cs : List Char) :
    value? inner depth (chars (.str s) ++ cs) = some (.str s, cs) := by
  have h : string? ('"' :: (s.toList.flatMap escape ++ ['"'] ++ cs)) = some (s, cs) :=
    string?_quote s cs
  change value? inner depth ('"' :: (s.toList.flatMap escape ++ ['"'] ++ cs)) = _
  unfold value?
  simp only [h, if_true]

theorem value?_int (inner : Bool) (depth : ℕ) (i : ℤ) {cs : List Char} (h : EndsNumber cs) :
    value? inner depth (chars (.int i) ++ cs) = some (.int i, cs) := by
  have hnum := number?_ofInt i h
  obtain ⟨c, ds, hi, hc⟩ := ofInt_head i
  rw [chars]
  rw [hi, List.cons_append] at hnum ⊢
  have hmark : c ≠ '"' ∧ c ≠ '[' ∧ c ≠ '{' ∧ c ≠ 'n' ∧ c ≠ 't' ∧ c ≠ 'f' := by
    refine ⟨?_, ?_, ?_, ?_, ?_, ?_⟩ <;> (rintro rfl; revert hc; decide)
  unfold value?
  simp [hmark, hnum]

theorem value?_scalar (inner : Bool) (depth : ℕ) {j : Json} (hj : j.IsScalar) {cs : List Char}
    (h : EndsNumber cs) : value? inner depth (j.chars ++ cs) = some (j, cs) := by
  cases j with
  | str s => exact value?_str inner depth s cs
  | int i => exact value?_int inner depth i h
  | _ => exact hj.elim

theorem member?_chars (inner : Bool) (depth : ℕ) (k : String) {j : Json} (hj : j.IsScalar) {cs : List Char}
    (h : EndsNumber cs) :
    member? inner (value? true depth) (quote k ++ ':' :: (j.chars ++ cs)) =
      some ((k, j), cs) := by
  simp [member?, string?_quote, skip, skip_chars hj, value?_scalar true depth hj h]

/-- Names and values up to the closing mark; every member takes two characters at least. -/
theorem itemsFrom_fieldChars (inner : Bool) (depth n : ℕ) (fields : List (String × Json)) (rest : List Char)
    (hne : fields ≠ []) (hfields : ∀ f ∈ fields, f.2.IsScalar) (hn : fields.length ≤ n) :
    itemsFrom (member? inner (value? true depth)) '}' n (fieldChars fields ++ '}' :: rest) =
      some (fields, rest) := by
  induction fields generalizing n with
  | nil => exact absurd rfl hne
  | cons f fs ih =>
    obtain ⟨k, j⟩ := f
    have hj : j.IsScalar := hfields (k, j) (by simp)
    obtain ⟨n, rfl⟩ : ∃ m, n = m + 1 := ⟨n - 1, by simp at hn; omega⟩
    have hskip : ∀ cs, skip (quote k ++ cs) = quote k ++ cs := fun cs =>
      skip_of_not_blank (by decide)
    cases fs with
    | nil =>
      have hends : EndsNumber ('}' :: rest) := by simp [EndsNumber]
      have hm := member?_chars inner depth k hj hends
      simp [itemsFrom, fieldChars, hskip, hm, skip]
    | cons g gs =>
      have hends : EndsNumber (',' :: (fieldChars (g :: gs) ++ '}' :: rest)) := by
        simp [EndsNumber]
      have hm := member?_chars inner depth k hj hends
      have hih := ih n (by simp) (fun f hf => hfields f (by simp [hf])) (by simpa using hn)
      simp [itemsFrom, fieldChars, hskip, hm, hih, skip]

theorem length_le_fieldChars (fields : List (String × Json)) :
    fields.length ≤ (fieldChars fields).length := by
  induction fields with
  | nil => simp
  | cons f fs ih =>
    obtain ⟨k, j⟩ := f
    cases fs with
    | nil => simp [fieldChars, quote]
    | cons g gs => simp [fieldChars, quote] at ih ⊢; omega

theorem listOf?_fieldChars (inner : Bool) (depth : ℕ) {fields : List (String × Json)}
    (h : ∀ f ∈ fields, f.2.IsScalar) :
    listOf? (member? inner (value? true depth)) '}' (fieldChars fields ++ ['}']) =
      some (fields, []) := by
  cases fields with
  | nil => simp [listOf?, fieldChars, skip]
  | cons f fs =>
    obtain ⟨cs, hcs⟩ : ∃ cs, fieldChars (f :: fs) ++ ['}'] = '"' :: cs := by
      obtain ⟨k, j⟩ := f
      cases fs <;> exact ⟨_, rfl⟩
    have hlen : (f :: fs).length ≤ cs.length + 1 := by
      have hle := length_le_fieldChars (f :: fs)
      have heq := congrArg List.length hcs
      simp only [List.length_append, List.length_cons, List.length_nil] at heq hle ⊢
      omega
    have hitems := itemsFrom_fieldChars inner depth (cs.length + 1) (f :: fs) [] (by simp) h hlen
    rw [hcs] at hitems ⊢
    have hskip : skip ('"' :: cs) = '"' :: cs := skip_of_not_blank (by decide)
    simp [listOf?, hskip, hitems]

theorem parse?_render_obj {fields : List (String × Json)} (h : ∀ f ∈ fields, f.2.IsScalar) :
    parse? (render (.obj fields)) = some (.obj fields) := by
  simp [parse?, ofChars?, render, chars, skip, value?, listOf?_fieldChars _ _ h]

theorem word?_int_toInt (t : Int64) : (int t.toInt).word? = some t := by
  simp only [word?]
  rw [if_pos ⟨Int64.minValue_le_toInt t, Int64.toInt_le t⟩, Int64.ofInt_toInt]

theorem parse?_render_str (s : String) : parse? (render (.str s)) = some (.str s) := by
  have hvalue := value?_str false (chars (.str s)).length s []
  have hskip : skip (chars (.str s)) = chars (.str s) := skip_of_not_blank (by decide)
  rw [List.append_nil] at hvalue
  simp [parse?, ofChars?, render, hskip, hvalue, skip]

end Json

namespace Session

theorem Ready.parse?_encode (r : Ready) : Json.parse? r.encode = some r.toJson := by
  refine Json.parse?_render_obj ?_
  simp [names, Json.IsScalar]

theorem Deletable.parse?_encode (d : Deletable) : Json.parse? d.encode = some d.toJson := by
  refine Json.parse?_render_obj ?_
  simp [names, Json.IsScalar]

@[simp] theorem Ready.decode?_encode (r : Ready) : decode? r.encode = some r := by
  rw [decode?, parse?_encode, Option.bind_some, toJson]
  simp [ofJson?, Json.slots?, names, Json.onlyField?, Json.text?, Json.word?_int_toInt]

@[simp] theorem Deletable.decode?_encode (d : Deletable) : decode? d.encode = some d := by
  rw [decode?, parse?_encode, Option.bind_some, toJson]
  simp [ofJson?, Json.slots?, names, Json.onlyField?, Json.text?]

end Session

end SessionWatch
