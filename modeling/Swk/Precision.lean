import Mathlib.Algebra.Order.Ring.Int
import Mathlib.Tactic.Ring
import Swk.StateExcept

/-!
# Amounts as decimal text

An asset has a precision, the number of decimals its amounts are shown with, and `precision.rs`
converts between satoshi and that text. Printing cuts the digits of the amount at the precision.
Parsing takes the first dot out, reads what is left as an integer, and scales it.

What a text denotes is defined apart from the parser (`Numeral`): a sign, digits, and digits after a
dot. Two things go wrong with the conversions, and nothing else does (`precision_exact_iff`). The
least `i64` has no absolute value, so it has no text unless the precision is zero. And a text that
begins with a dot may have its sign after it: with the dot taken out, nothing is wrong with it.
-/

namespace Swk

open List

namespace Precision

/-! ## The conversions -/

inductive ParseIntError
  | empty
  | invalidDigit
  | posOverflow
  | negOverflow
deriving DecidableEq

inductive Error
  | tooPrecise (given : UInt8)
  | parse (e : ParseIntError)
  | overflow (val : String)
  /-- `TryFromIntError`. -/
  | tryFrom
  | stringTooPrecise (our given : Nat)
deriving DecidableEq

end Precision

structure Precision where
  digits : Nat
  le : digits ≤ 8

namespace Precision

def new (precision : UInt8) : Except Error Precision :=
  if h : precision.toNat ≤ 8 then .ok ⟨precision.toNat, h⟩ else .error (.tooPrecise precision)

variable (p : Precision)

/-- `sats_to_string`. The absolute value of the least `i64` is itself, unless overflow is checked:
then there is none. -/
def satsToString (sats : Int64) : String :=
  if p.digits = 0 then toString sats
  else
    let negative := if sats < 0 then ['-'] else []
    let text := (toString sats.abs).toList
    if text.length > p.digits then
      let whole := text.length - p.digits
      String.ofList (negative ++ text.take whole ++ '.' :: text.drop whole)
    else
      let missing := p.digits - text.length
      String.ofList (negative ++ '0' :: '.' :: (List.replicate missing '0' ++ text))

/-- Printing takes an absolute value that overflows. -/
def Overflows (sats : Int64) : Prop :=
  p.digits ≠ 0 ∧ sats.abs.toInt ≠ sats.toInt.natAbs

/-- The digits of an integer of at most the given size. -/
def parseDigits (tooLarge : ParseIntError) (limit : Nat) : Nat → List Char →
    Except ParseIntError Nat
  | n, [] => .ok n
  | n, c :: cs =>
    if c.isDigit then
      if 10 * n + (c.toNat - '0'.toNat) ≤ limit then
        parseDigits tooLarge limit (10 * n + (c.toNat - '0'.toNat)) cs
      else .error tooLarge
    else .error .invalidDigit

/-- `i128::from_str`. -/
def parseI128 (val : List Char) : Except ParseIntError Int :=
  match val with
  | [] => .error .empty
  | c :: cs =>
    if (c = '+' ∨ c = '-') ∧ cs = [] then .error .invalidDigit
    else if c = '+' then
      (parseDigits .posOverflow (2 ^ 127 - 1) 0 cs).map fun n : Nat => (n : Int)
    else if c = '-' then (parseDigits .negOverflow (2 ^ 127) 0 cs).map fun n : Nat => -(n : Int)
    else (parseDigits .posOverflow (2 ^ 127 - 1) 0 (c :: cs)).map fun n : Nat => (n : Int)

def innerConvert (val : List Char) : Except Error Int := do
  let num ← (parseI128 val).mapError Error.parse
  let product := num * 10 ^ p.digits
  if -2 ^ 127 ≤ product ∧ product < 2 ^ 127 then pure product
  else throw (.overflow (String.ofList val))

/-- `i64::try_from`. -/
def tryIntoI64 (n : Int) : Except Error Int64 :=
  if -2 ^ 63 ≤ n ∧ n < 2 ^ 63 then .ok (Int64.ofInt n) else .error .tryFrom

/-- A text at its first dot: what is before it and what is after it. -/
def findDot : List Char → Option (List Char × List Char)
  | [] => none
  | c :: cs => if c = '.' then some ([], cs) else (findDot cs).map fun r => (c :: r.1, r.2)

def stringToSats (val : String) : Except Error Int64 :=
  match findDot val.toList with
  | some (left, right) => do
      -- the length counts bytes, and has to be a `u8`
      let rightIdx := (right.map Char.utf8Size).sum
      if rightIdx > 255 then throw .tryFrom
      else if rightIdx > p.digits then throw (.stringTooPrecise p.digits rightIdx)
      else
        let parsedWithoutDot ← p.innerConvert (left ++ right)
        tryIntoI64 (parsedWithoutDot.tdiv (10 ^ rightIdx))
  | none => do
      let parsed ← p.innerConvert val.toList
      tryIntoI64 parsed

/-! ## What a text denotes -/

inductive Sign
  | none
  | plus
  | minus

namespace Sign

def text : Sign → List Char
  | none => []
  | plus => ['+']
  | minus => ['-']

def apply (sign : Sign) (n : Nat) : Int :=
  match sign with
  | none | plus => n
  | minus => -n

end Sign

abbrev value (digits : List Char) : Nat := Nat.ofDigitChars 10 digits 0

/-- A decimal numeral: a sign, digits, and digits after a dot if there is one. -/
structure Numeral where
  sign : Sign
  whole : List Char
  fraction : Option (List Char)
  digits : ∀ c ∈ whole ++ fraction.getD [], c.isDigit = true
  nonempty : whole ++ fraction.getD [] ≠ []

namespace Numeral

def text (n : Numeral) : List Char :=
  n.sign.text ++ n.whole ++
    match n.fraction with
    | none => []
    | some fraction => '.' :: fraction

def decimals (n : Numeral) : Nat := (n.fraction.getD []).length

/-- The number without its dot: the numeral denotes `unscaled / 10 ^ decimals`. -/
def unscaled (n : Numeral) : Int := n.sign.apply (value (n.whole ++ n.fraction.getD []))

end Numeral

/-- A text is a numeral that the precision allows, and an amount is exactly what it denotes. -/
def Reads (p : Precision) (s : String) (v : Int64) : Prop :=
  ∃ n : Numeral, n.text = s.toList ∧ n.decimals ≤ p.digits ∧
    v.toInt * 10 ^ n.decimals = n.unscaled * 10 ^ p.digits

/-- A text with its sign after the dot, and few enough digits. -/
def SignAfterDot (p : Precision) (s : String) : Prop :=
  ∃ (sign : Sign) (digits : List Char), sign.text ≠ [] ∧ s.toList = '.' :: (sign.text ++ digits) ∧
    digits ≠ [] ∧ (∀ c ∈ digits, c.isDigit = true) ∧ digits.length + 1 ≤ p.digits

/-! ## Reading integers -/

theorem le_ofDigitChars (m : Nat) (cs : List Char) : m ≤ Nat.ofDigitChars 10 cs m := by
  rw [Nat.ofDigitChars_eq_ofDigitChars_zero]
  have hle : m ≤ 10 ^ cs.length * m := Nat.le_mul_of_pos_left m (Nat.pow_pos (by decide))
  omega

theorem parseDigits_ok_iff {tooLarge : ParseIntError} {limit : Nat} (cs : List Char) {m r : Nat}
    (hm : m ≤ limit) : parseDigits tooLarge limit m cs = .ok r ↔
      (∀ c ∈ cs, c.isDigit = true) ∧ r = Nat.ofDigitChars 10 cs m ∧ r ≤ limit := by
  induction cs generalizing m with
  | nil =>
    simp only [parseDigits, Except.ok.injEq, not_mem_nil, false_implies, implies_true,
      true_and, Nat.ofDigitChars_nil]
    constructor
    · intro h
      exact ⟨h.symm, h ▸ hm⟩
    · intro h
      exact h.1.symm
  | cons c cs ih =>
    rw [parseDigits]
    by_cases hdigit : c.isDigit = true
    · rw [if_pos hdigit]
      by_cases hle : 10 * m + (c.toNat - '0'.toNat) ≤ limit
      · rw [if_pos hle, ih hle, Nat.ofDigitChars_cons]
        simp [hdigit]
      · rw [if_neg hle]
        refine iff_of_false (fun h => by cases h) ?_
        intro h
        obtain ⟨-, rfl, hr⟩ := h
        rw [Nat.ofDigitChars_cons] at hr
        exact hle (le_trans (le_ofDigitChars _ cs) hr)
    · rw [if_neg hdigit]
      refine iff_of_false (fun h => by cases h) ?_
      intro h
      exact hdigit (h.1 c mem_cons_self)

/-- An integer in the range of `i128`. -/
def InI128 (n : Int) : Prop := -2 ^ 127 ≤ n ∧ n < 2 ^ 127

theorem isDigit_ne {c d : Char} (hc : c.isDigit = true) (hd : d.isDigit = false) : c ≠ d := by
  intro h
  rw [h, hd] at hc
  cases hc

/-- The largest number that is an `i128` with a sign. -/
def Sign.limit : Sign → Nat
  | none | plus => 2 ^ 127 - 1
  | minus => 2 ^ 127

variable (sign : Sign) {cs : List Char} {n : Int}

theorem Sign.inI128_iff (n : Nat) : InI128 (sign.apply n) ↔ n ≤ sign.limit := by
  cases sign <;> simp only [InI128, Sign.apply, Sign.limit] <;> omega

theorem parseI128_text (hne : cs ≠ []) (hcs : sign = .none → ∀ c ∈ cs.head?, c ≠ '+' ∧ c ≠ '-') :
    ∃ tooLarge, parseI128 (sign.text ++ cs) =
      (parseDigits tooLarge sign.limit 0 cs).map sign.apply := by
  cases sign with
  | none =>
    cases cs with
    | nil => exact absurd rfl hne
    | cons c cs =>
      obtain ⟨hplus, hminus⟩ := hcs rfl c rfl
      refine ⟨.posOverflow, ?_⟩
      simp only [Sign.text, nil_append, parseI128, hplus, hminus, or_self, false_and, if_false]
      rfl
  | plus =>
    refine ⟨.posOverflow, ?_⟩
    simp only [Sign.text, singleton_append, parseI128, hne, and_false, if_false, if_true]
    rfl
  | minus =>
    refine ⟨.negOverflow, ?_⟩
    simp only [Sign.text, singleton_append, parseI128, hne, and_false, if_false, if_true]
    rfl

theorem parseI128_text_ok_iff (hne : cs ≠ [])
    (hcs : sign = .none → ∀ c ∈ cs.head?, c ≠ '+' ∧ c ≠ '-') : parseI128 (sign.text ++ cs) = .ok n ↔
      (∀ c ∈ cs, c.isDigit = true) ∧ n = sign.apply (value cs) ∧ InI128 n := by
  obtain ⟨tooLarge, htext⟩ := parseI128_text sign hne hcs
  rw [htext, map_ok_iff]
  constructor
  · intro h
    obtain ⟨r, hr, rfl⟩ := h
    obtain ⟨hdigits, rfl, hle⟩ := (parseDigits_ok_iff cs (Nat.zero_le _)).1 hr
    exact ⟨hdigits, rfl, (sign.inI128_iff _).2 hle⟩
  · intro h
    obtain ⟨hdigits, rfl, hin⟩ := h
    exact ⟨_, (parseDigits_ok_iff cs (Nat.zero_le _)).2 ⟨hdigits, rfl, (sign.inI128_iff _).1 hin⟩,
      rfl⟩

/-- **Integers.** A text is an integer if it is a sign and digits, and their number fits. -/
theorem parseI128_ok_iff {val : List Char} :
    parseI128 val = .ok n ↔ ∃ (sign : Sign) (cs : List Char), val = sign.text ++ cs ∧ cs ≠ [] ∧
      (∀ c ∈ cs, c.isDigit = true) ∧ n = sign.apply (value cs) ∧ InI128 n := by
  constructor
  · intro h
    cases val with
    | nil => cases h
    | cons c cs =>
      by_cases hsigned : c = '+' ∨ c = '-'
      · have hne : cs ≠ [] := by
          intro hnil
          rw [parseI128, if_pos ⟨hsigned, hnil⟩] at h
          cases h
        rcases hsigned with rfl | rfl
        · exact ⟨.plus, cs, rfl, hne, (parseI128_text_ok_iff .plus hne (fun h => by cases h)).1 h⟩
        · exact ⟨.minus, cs, rfl, hne, (parseI128_text_ok_iff .minus hne (fun h => by cases h)).1 h⟩
      · refine ⟨.none, c :: cs, rfl, cons_ne_nil _ _,
          (parseI128_text_ok_iff .none (cons_ne_nil _ _) fun _ d hd => ?_).1 h⟩
        obtain rfl := Option.some.inj hd
        exact not_or.1 hsigned
  · intro h
    obtain ⟨sign, cs, rfl, hne, hdigits, hn⟩ := h
    refine (parseI128_text_ok_iff sign hne fun _ c hc => ?_).2 ⟨hdigits, hn⟩
    have hdigit := hdigits c (mem_of_mem_head? hc)
    exact ⟨isDigit_ne hdigit rfl, isDigit_ne hdigit rfl⟩

/-! ## Reading amounts -/

theorem findDot_eq_none_iff {s : List Char} : findDot s = none ↔ '.' ∉ s := by
  induction s with
  | nil => simp [findDot]
  | cons c cs ih =>
    by_cases hdot : c = '.'
    · simp [findDot, hdot]
    · simp [findDot, hdot, ih, Ne.symm hdot]

theorem findDot_eq_some_iff {s l r : List Char} :
    findDot s = some (l, r) ↔ s = l ++ '.' :: r ∧ '.' ∉ l := by
  induction s generalizing l with
  | nil => simp [findDot]
  | cons c cs ih =>
    by_cases hdot : c = '.'
    · subst hdot
      cases l with
      | nil => simp [findDot]
      | cons d l =>
        refine iff_of_false (by simp [findDot]) ?_
        intro h
        obtain ⟨rfl, -⟩ := cons.inj h.1
        exact h.2 mem_cons_self
    · cases l with
      | nil => simp [findDot, hdot]
      | cons d l =>
        simp only [findDot, hdot, if_false, Option.map_eq_some_iff, Prod.exists,
          Prod.mk.injEq, cons_append, cons.injEq, mem_cons, not_or]
        constructor
        · intro h
          obtain ⟨l', r', hfind, ⟨rfl, rfl⟩, rfl⟩ := h
          obtain ⟨rfl, hl⟩ := ih.1 hfind
          exact ⟨⟨rfl, rfl⟩, Ne.symm hdot, hl⟩
        · intro h
          obtain ⟨⟨rfl, hcs⟩, -, hl⟩ := h
          exact ⟨l, r, ih.2 ⟨hcs, hl⟩, ⟨rfl, rfl⟩, rfl⟩

theorem InI128.of_mul_pow {k : Nat} (h : InI128 (n * 10 ^ k)) : InI128 n := by
  have hpos : (1 : Int) ≤ 10 ^ k := one_le_pow₀ (by decide)
  obtain ⟨hlo, hhi⟩ := h
  constructor
  · by_contra hlt
    have hle : n * 10 ^ k ≤ n * 1 := mul_le_mul_of_nonpos_left hpos (by omega)
    omega
  · by_contra hge
    have hle : n * 1 ≤ n * 10 ^ k := mul_le_mul_of_nonneg_left hpos (by omega)
    omega

theorem innerConvert_ok_iff {p : Precision} {val : List Char} :
    p.innerConvert val = .ok n ↔ ∃ (sign : Sign) (cs : List Char), val = sign.text ++ cs ∧ cs ≠ [] ∧
      (∀ c ∈ cs, c.isDigit = true) ∧ n = sign.apply (value cs) * 10 ^ p.digits ∧ InI128 n := by
  rw [innerConvert, except_bind_ok_iff]
  simp only [mapError_ok_iff]
  constructor
  · intro h
    obtain ⟨num, hnum, h⟩ := h
    obtain ⟨sign, cs, hval, hne, hdigits, rfl, -⟩ := parseI128_ok_iff.1 hnum
    split at h
    · rename_i hin
      obtain rfl := Except.ok.inj h
      exact ⟨sign, cs, hval, hne, hdigits, rfl, hin⟩
    · cases h
  · intro h
    obtain ⟨sign, cs, hval, hne, hdigits, rfl, hin⟩ := h
    refine ⟨_, parseI128_ok_iff.2 ⟨sign, cs, hval, hne, hdigits, rfl, hin.of_mul_pow⟩, ?_⟩
    exact if_pos hin

theorem tryIntoI64_ok_iff {v : Int64} : tryIntoI64 n = .ok v ↔ v.toInt = n := by
  unfold tryIntoI64
  split
  · rename_i hin
    have hofInt := Int64.toInt_ofInt_of_le hin.1 hin.2
    rw [Except.ok.injEq]
    constructor
    · intro h
      rw [← h, hofInt]
    · intro h
      exact Int64.toInt_inj.1 (hofInt.trans h.symm)
  · rename_i hnot
    refine iff_of_false (fun h => by cases h) ?_
    intro h
    exact hnot ⟨h ▸ v.le_toInt, h ▸ v.toInt_lt⟩

theorem sum_utf8Size (h : ∀ c ∈ cs, c.utf8Size = 1) : (cs.map Char.utf8Size).sum = cs.length := by
  induction cs with
  | nil => rfl
  | cons c cs ih =>
    rw [map_cons, sum_cons, h c mem_cons_self,
      ih fun d hd => h d (mem_cons_of_mem _ hd), length_cons, Nat.add_comm]

theorem utf8Size_of_isDigit {c : Char} (h : c.isDigit = true) : c.utf8Size = 1 := by
  rw [Char.isDigit, Bool.and_eq_true, decide_eq_true_eq, decide_eq_true_eq] at h
  have hle : c.val ≤ 0x7f := UInt32.le_trans h.2 (by decide)
  simp [Char.utf8Size, hle]

theorem utf8Size_signed {sign : Sign} (h : ∀ c ∈ cs, c.isDigit = true) :
    ∀ c ∈ sign.text ++ cs, c.utf8Size = 1 := by
  intro c hc
  rcases mem_append.1 hc with hc | hc
  · cases sign with
    | none => cases hc
    | plus | minus =>
      obtain rfl := mem_singleton.1 hc
      rfl
  · exact utf8Size_of_isDigit (h c hc)

theorem inI128_toInt (v : Int64) : InI128 v.toInt := by
  have hlo := v.le_toInt
  have hhi := v.toInt_lt
  constructor <;> omega

theorem Sign.natAbs_apply (n : Nat) : (sign.apply n).natAbs = n := by
  cases sign <;> simp [Sign.apply]

theorem digit_le {c : Char} (h : c.isDigit = true) : c.toNat - '0'.toNat ≤ 9 := by
  rw [Char.isDigit, Bool.and_eq_true, decide_eq_true_eq, decide_eq_true_eq] at h
  have hle := UInt32.le_iff_toNat_le.1 h.2
  have hnine : '9'.val.toNat = 57 := rfl
  have hzero : '0'.toNat = 48 := rfl
  rw [Char.toNat]
  omega

/-- `k` digits are a number below `10 ^ k`. -/
theorem ofDigitChars_lt (h : ∀ c ∈ cs, c.isDigit = true) (m : Nat) :
    Nat.ofDigitChars 10 cs m < (m + 1) * 10 ^ cs.length := by
  induction cs generalizing m with
  | nil => simp
  | cons c cs ih =>
    have hdigit := digit_le (h c mem_cons_self)
    have hrest := ih (fun d hd => h d (mem_cons_of_mem _ hd)) (10 * m + (c.toNat - '0'.toNat))
    rw [Nat.ofDigitChars_cons, length_cons, Nat.pow_succ', ← Nat.mul_assoc]
    refine Nat.lt_of_lt_of_le hrest (Nat.mul_le_mul_right _ ?_)
    omega

theorem value_lt (h : ∀ c ∈ cs, c.isDigit = true) : value cs < 10 ^ cs.length := by
  simpa using ofDigitChars_lt h 0

section Reading

variable {p : Precision} {s : String} {v : Int64}

theorem stringToSats_undotted_iff (hdot : '.' ∉ s.toList) : p.stringToSats s = .ok v ↔
    ∃ (sign : Sign) (cs : List Char), s.toList = sign.text ++ cs ∧ cs ≠ [] ∧
      (∀ c ∈ cs, c.isDigit = true) ∧ v.toInt = sign.apply (value cs) * 10 ^ p.digits := by
  rw [stringToSats, findDot_eq_none_iff.2 hdot]
  dsimp only
  rw [except_bind_ok_iff]
  simp only [tryIntoI64_ok_iff, innerConvert_ok_iff]
  constructor
  · intro h
    obtain ⟨n, ⟨sign, cs, hs, hne, hdigits, hn, -⟩, rfl⟩ := h
    exact ⟨sign, cs, hs, hne, hdigits, hn⟩
  · intro h
    obtain ⟨sign, cs, hs, hne, hdigits, hn⟩ := h
    exact ⟨v.toInt, ⟨sign, cs, hs, hne, hdigits, hn, inI128_toInt v⟩, rfl⟩

theorem stringToSats_dotted_iff {l r : List Char} (hs : s.toList = l ++ '.' :: r) (hl : '.' ∉ l) :
    p.stringToSats s = .ok v ↔
      ∃ (sign : Sign) (cs : List Char), l ++ r = sign.text ++ cs ∧ cs ≠ [] ∧
        (∀ c ∈ cs, c.isDigit = true) ∧ r.length ≤ p.digits ∧
        v.toInt * 10 ^ r.length = sign.apply (value cs) * 10 ^ p.digits ∧
        InI128 (sign.apply (value cs) * 10 ^ p.digits) := by
  have hpow : (10 : Int) ^ r.length ≠ 0 := pow_ne_zero _ (by decide)
  have hsize {sign : Sign} {cs : List Char} (heq : l ++ r = sign.text ++ cs)
      (hdigits : ∀ c ∈ cs, c.isDigit = true) : (r.map Char.utf8Size).sum = r.length :=
    sum_utf8Size fun c hc => utf8Size_signed hdigits c (heq ▸ mem_append_right l hc)
  rw [stringToSats, findDot_eq_some_iff.2 ⟨hs, hl⟩]
  dsimp only
  constructor
  · intro h
    split at h
    · cases h
    split at h
    · cases h
    rename_i hle
    obtain ⟨n, hconvert, h⟩ := except_bind_ok_iff.1 h
    obtain ⟨sign, cs, heq, hne, hdigits, rfl, hin⟩ := innerConvert_ok_iff.1 hconvert
    rw [hsize heq hdigits] at h hle
    have hdvd : (10 : Int) ^ r.length ∣ sign.apply (value cs) * 10 ^ p.digits :=
      Dvd.dvd.mul_left (pow_dvd_pow 10 (not_lt.1 hle)) _
    refine ⟨sign, cs, heq, hne, hdigits, not_lt.1 hle, ?_, hin⟩
    rw [tryIntoI64_ok_iff.1 h, Int.tdiv_mul_cancel hdvd]
  · intro h
    obtain ⟨sign, cs, heq, hne, hdigits, hle, hv, hin⟩ := h
    have hp := p.le
    rw [hsize heq hdigits, if_neg (by omega), if_neg (by omega)]
    refine except_bind_ok_iff.2 ⟨_, innerConvert_ok_iff.2 ⟨sign, cs, heq, hne, hdigits, rfl, hin⟩,
      tryIntoI64_ok_iff.2 ?_⟩
    rw [← hv, Int.mul_tdiv_cancel _ hpow]

theorem reads_of_dotted {sign : Sign} {whole r : List Char}
    (hs : s.toList = sign.text ++ whole ++ '.' :: r)
    (hdigits : ∀ c ∈ whole ++ r, c.isDigit = true) (hne : whole ++ r ≠ [])
    (hle : r.length ≤ p.digits)
    (hv : v.toInt * 10 ^ r.length = sign.apply (value (whole ++ r)) * 10 ^ p.digits) :
    Reads p s v :=
  ⟨⟨sign, whole, some r, hdigits, hne⟩, hs.symm, hle, hv⟩

theorem reads_or_signAfterDot (h : p.stringToSats s = .ok v) : Reads p s v ∨ SignAfterDot p s := by
  cases hfind : findDot s.toList with
  | none =>
    obtain ⟨sign, cs, hs, hne, hdigits, hv⟩ :=
      (stringToSats_undotted_iff (findDot_eq_none_iff.1 hfind)).1 h
    left
    refine ⟨⟨sign, cs, none, by simpa using hdigits, by simpa using hne⟩, ?_, Nat.zero_le _, ?_⟩
    · simp [Numeral.text, hs]
    · simpa [Numeral.unscaled, Numeral.decimals] using hv
  | some e =>
    obtain ⟨l, r⟩ := e
    obtain ⟨hs, hl⟩ := findDot_eq_some_iff.1 hfind
    obtain ⟨sign, cs, heq, hne, hdigits, hle, hv, -⟩ := (stringToSats_dotted_iff hs hl).1 h
    cases l with
    | nil =>
      rw [nil_append] at heq hs
      by_cases hsign : sign.text = []
      · left
        rw [hsign, nil_append] at heq
        subst heq
        exact @reads_of_dotted p s v sign [] _ (by rw [hsign, hs]; rfl) hdigits hne hle hv
      · right
        have hlength : sign.text.length = 1 := by
          cases sign <;> simp_all [Sign.text]
        refine ⟨sign, cs, hsign, by rw [hs, heq], hne, hdigits, ?_⟩
        rw [heq, length_append, hlength] at hle
        omega
    | cons c l =>
      left
      obtain ⟨whole, hwhole, rfl⟩ : ∃ whole, c :: l = sign.text ++ whole ∧ cs = whole ++ r := by
        cases sign with
        | none => exact ⟨c :: l, rfl, heq.symm⟩
        | plus | minus =>
          obtain ⟨rfl, hrest⟩ := cons.inj heq
          exact ⟨l, rfl, hrest.symm⟩
      exact reads_of_dotted (by rw [hs, hwhole]) hdigits hne hle hv

theorem SignAfterDot.read (h : SignAfterDot p s) : ∃ v, p.stringToSats s = .ok v := by
  obtain ⟨sign, digits, hsign, hs, hne, hdigits, hle⟩ := h
  have hp := p.le
  have hvalue : value digits < 10 ^ 7 :=
    Nat.lt_of_lt_of_le (value_lt hdigits) (Nat.pow_le_pow_right (by decide) (by omega))
  have hscaled (k : Nat) (hk : k ≤ 8) : (sign.apply (value digits) * 10 ^ k).natAbs < 10 ^ 15 := by
    rw [Int.natAbs_mul, sign.natAbs_apply, Int.natAbs_pow]
    calc value digits * 10 ^ k < 10 ^ 7 * 10 ^ k :=
          Nat.mul_lt_mul_of_pos_right hvalue (Nat.pow_pos (by decide))
      _ ≤ 10 ^ 7 * 10 ^ 8 := Nat.mul_le_mul_left _ (Nat.pow_le_pow_right (by decide) hk)
      _ = 10 ^ 15 := by decide
  have hlength : (sign.text ++ digits).length = digits.length + 1 := by
    cases sign with
    | none => exact absurd rfl hsign
    | plus => rfl
    | minus => rfl
  -- the sign counts as one more digit
  obtain ⟨k, hk⟩ : ∃ k, p.digits = k + (digits.length + 1) :=
    ⟨p.digits - (digits.length + 1), by omega⟩
  refine ⟨Int64.ofInt (sign.apply (value digits) * 10 ^ k),
    (stringToSats_dotted_iff (l := []) hs not_mem_nil).2
      ⟨sign, digits, rfl, hne, hdigits, by rw [hlength]; exact hle, ?_, ?_⟩⟩
  · have hin := hscaled k (by omega)
    rw [Int64.toInt_ofInt_of_le (by omega) (by omega), hlength, hk, mul_assoc, ← pow_add]
  · have hin := hscaled p.digits hp
    constructor <;> omega

theorem SignAfterDot.not_reads (h : SignAfterDot p s) : ¬ Reads p s v := by
  obtain ⟨sign, digits, hsign, hs, -⟩ := h
  intro hreads
  obtain ⟨⟨nsign, whole, fraction, hdigits, hdigit⟩, htext, -, -⟩ := hreads
  rw [hs] at htext
  cases nsign with
  | plus | minus => cases (cons.inj htext).1
  | none =>
    cases whole with
    | cons c whole =>
      obtain ⟨rfl, -⟩ := cons.inj htext
      cases hdigits _ mem_cons_self
    | nil =>
      cases fraction with
      | none => cases htext
      | some fraction =>
        obtain ⟨-, rfl⟩ := cons.inj htext
        cases sign with
        | none => exact hsign rfl
        | plus | minus => cases hdigits _ mem_cons_self

end Reading

/-! ## Printing -/

def Sign.of (n : Int) : Sign := if n < 0 then .minus else .none

theorem Sign.of_apply (n : Int) : (Sign.of n).apply n.natAbs = n := by
  unfold Sign.of
  split
  all_goals
    simp only [Sign.apply]
    omega

theorem toList_toString (v : Int64) :
    (toString v).toList = (Sign.of v.toInt).text ++ Nat.toDigits 10 v.toInt.natAbs := by
  show (toString v.toInt).toList = _
  rw [Int.toString_eq_repr, Int.repr_eq_if]
  unfold Sign.of
  split
  · rename_i hpos
    rw [if_neg (not_lt.2 hpos), Nat.toList_repr, Sign.text, nil_append,
      show v.toInt.toNat = v.toInt.natAbs by omega]
  · rename_i hneg
    rw [if_pos (not_le.1 hneg), String.toList_append, Nat.toList_repr,
      show (-v.toInt).toNat = v.toInt.natAbs by omega]
    rfl

variable {v : Int64} {p : Precision}

theorem toInt_abs (h : v ≠ Int64.minValue) : v.abs.toInt = v.toInt.natAbs := by
  have hne : v.toBitVec ≠ BitVec.intMin 64 := by
    intro hmin
    exact h (Int64.toBitVec_inj.1 hmin)
  exact BitVec.toInt_abs_eq_natAbs_of_ne_intMin hne

theorem overflows_iff : Overflows p v ↔ p.digits ≠ 0 ∧ v = Int64.minValue := by
  refine and_congr_right fun _ => ?_
  constructor
  · intro h
    by_contra hne
    exact h (toInt_abs hne)
  · intro h
    rw [h]
    decide

theorem value_zeros_append (k : Nat) (cs : List Char) :
    value (List.replicate k '0' ++ cs) = value cs := by
  rw [value, Nat.ofDigitChars_append, Nat.ofDigitChars_replicate_zero, Nat.mul_zero]

/-- The digits of an amount, cut at the precision. -/
structure Cut (p : Precision) (n : Nat) (whole fraction : List Char) : Prop where
  digits : ∀ c ∈ whole ++ fraction, c.isDigit = true
  length : fraction.length = p.digits
  nonempty : whole ++ fraction ≠ []
  value_eq : value (whole ++ fraction) = n

theorem satsToString_cut (hp : p.digits ≠ 0) (hv : v ≠ Int64.minValue) :
    ∃ whole fraction, Cut p v.toInt.natAbs whole fraction ∧
      (p.satsToString v).toList = (Sign.of v.toInt).text ++ whole ++ '.' :: fraction := by
  have habs := toInt_abs hv
  have htext : (toString v.abs).toList = Nat.toDigits 10 v.toInt.natAbs := by
    rw [toList_toString, habs, Int.natAbs_natCast, Sign.of, if_neg (by omega)]
    rfl
  have hnegative : (if v < 0 then ['-'] else []) = (Sign.of v.toInt).text := by
    unfold Sign.of
    have hiff : v < 0 ↔ v.toInt < 0 := Int64.lt_iff_toInt_lt
    by_cases hneg : v < 0
    · rw [if_pos hneg, if_pos (hiff.1 hneg)]
      rfl
    · rw [if_neg hneg, if_neg (mt hiff.2 hneg)]
      rfl
  have hdigits : ∀ c ∈ Nat.toDigits 10 v.toInt.natAbs, c.isDigit = true := fun c hc =>
    Nat.isDigit_of_mem_toDigits (by decide) (by decide) hc
  rw [satsToString, if_neg hp]
  dsimp only
  rw [htext, hnegative]
  split
  · rename_i hlong
    refine ⟨(Nat.toDigits 10 v.toInt.natAbs).take _, (Nat.toDigits 10 v.toInt.natAbs).drop _,
      ⟨?_, ?_, ?_, ?_⟩, String.toList_ofList⟩
    · rw [take_append_drop]
      exact hdigits
    · rw [length_drop]
      omega
    · rw [take_append_drop]
      exact Nat.toDigits_ne_nil
    · rw [take_append_drop]
      exact Nat.ofDigitChars_ten_toDigits
  · rename_i hshort
    refine ⟨['0'], replicate (p.digits - (Nat.toDigits 10 v.toInt.natAbs).length) '0' ++
      Nat.toDigits 10 v.toInt.natAbs, ⟨?_, ?_, ?_, ?_⟩, ?_⟩
    · intro c hc
      simp only [singleton_append, mem_cons, mem_append, mem_replicate] at hc
      rcases hc with rfl | ⟨-, rfl⟩ | hc
      · rfl
      · rfl
      · exact hdigits c hc
    · rw [length_append, length_replicate]
      omega
    · exact cons_ne_nil _ _
    · calc value (['0'] ++ _) = value _ := value_zeros_append 1 _
        _ = value (Nat.toDigits 10 v.toInt.natAbs) := value_zeros_append _ _
        _ = v.toInt.natAbs := Nat.ofDigitChars_ten_toDigits
    · rw [String.toList_ofList, append_assoc]
      rfl

theorem inI128_mul_pow (p : Precision) (v : Int64) : InI128 (v.toInt * 10 ^ p.digits) := by
  have hlow := v.le_toInt
  have hhigh := v.toInt_lt
  have hpow : 10 ^ p.digits ≤ 10 ^ 8 := Nat.pow_le_pow_right (by decide) p.le
  have habs : (v.toInt * 10 ^ p.digits).natAbs ≤ 2 ^ 63 * 10 ^ 8 := by
    rw [Int.natAbs_mul, Int.natAbs_pow]
    exact Nat.mul_le_mul (by omega) hpow
  constructor <;> omega

/-- **Printing and reading back**, where printing does not overflow. -/
theorem stringToSats_satsToString
    (h : p.digits ≠ 0 → v ≠ Int64.minValue) : p.stringToSats (p.satsToString v) = .ok v := by
  have hnodot (cs : List Char) (hcs : ∀ c ∈ cs, c.isDigit = true) :
      '.' ∉ (Sign.of v.toInt).text ++ cs := by
    intro hdot
    rcases mem_append.1 hdot with hdot | hdot
    · unfold Sign.of at hdot
      split at hdot
      · cases mem_singleton.1 hdot
      · cases hdot
    · cases hcs _ hdot
  by_cases hp : p.digits = 0
  · have htext : (p.satsToString v).toList =
        (Sign.of v.toInt).text ++ Nat.toDigits 10 v.toInt.natAbs := by
      rw [satsToString, if_pos hp, toList_toString]
    have hdigits : ∀ c ∈ Nat.toDigits 10 v.toInt.natAbs, c.isDigit = true := fun c hc =>
      Nat.isDigit_of_mem_toDigits (by decide) (by decide) hc
    refine (stringToSats_undotted_iff (by rw [htext]; exact hnodot _ hdigits)).2
      ⟨_, _, htext, Nat.toDigits_ne_nil, hdigits, ?_⟩
    rw [hp, pow_zero, mul_one, value, Nat.ofDigitChars_ten_toDigits, Sign.of_apply]
  · obtain ⟨whole, fraction, hcut, htext⟩ := satsToString_cut hp (h hp)
    have hwhole : ∀ c ∈ whole, c.isDigit = true := fun c hc =>
      hcut.digits c (mem_append_left _ hc)
    refine (stringToSats_dotted_iff htext (hnodot _ hwhole)).2
      ⟨_, _, append_assoc _ _ _, hcut.nonempty, hcut.digits, hcut.length.le, ?_, ?_⟩
    · rw [hcut.value_eq, Sign.of_apply, hcut.length]
    · rw [hcut.value_eq, Sign.of_apply]
      exact inI128_mul_pow p v

/-! ## Exactness -/

/-- **Exactness.** The conversions are exact for the amounts that have an absolute value, or need
none, and the texts that have no sign after the dot. -/
theorem precision_exact_iff (p : Precision) (v : Int64) (s : String) :
    ((¬ Overflows p v ∧ p.stringToSats (p.satsToString v) = .ok v) ∧
        ∀ w, p.stringToSats s = .ok w → Reads p s w) ↔
      (p.digits = 0 ∨ v ≠ Int64.minValue) ∧ ¬ SignAfterDot p s := by
  constructor
  · rintro ⟨⟨hprint, -⟩, hread⟩
    refine ⟨?_, ?_⟩
    · by_contra hmin
      rw [not_or, not_not] at hmin
      exact hprint (overflows_iff.2 hmin)
    · intro hsign
      obtain ⟨w, hw⟩ := hsign.read
      exact hsign.not_reads (hread w hw)
  · rintro ⟨hmin, hsign⟩
    refine ⟨⟨?_, ?_⟩, ?_⟩
    · intro hoverflow
      obtain ⟨hp, hv⟩ := overflows_iff.1 hoverflow
      exact hmin.elim hp (fun hne => hne hv)
    · apply stringToSats_satsToString
      intro hp
      exact hmin.resolve_left hp
    · intro w hw
      exact (reads_or_signAfterDot hw).resolve_right hsign

/-- The least `i64` is printed with two signs, and not read back. A text with a sign after the dot
is read as millionths. -/
theorem leastAmount_and_signAfterDot :
    let p : Precision := ⟨8, by decide⟩
    Overflows p Int64.minValue ∧ p.satsToString Int64.minValue = "--92233720368.54775808" ∧
      p.stringToSats "--92233720368.54775808" = .error (.parse .invalidDigit) ∧
      p.stringToSats ".-5" = .ok (-5000000) ∧ ¬ Reads p ".-5" (-5000000) := by
  refine ⟨overflows_iff.2 ⟨by decide, rfl⟩, by decide, by decide, by decide, ?_⟩
  apply SignAfterDot.not_reads
  exact ⟨.minus, ['5'], by decide, by decide, by decide, forall_mem_singleton.2 rfl, by decide⟩

end Precision

end Swk
