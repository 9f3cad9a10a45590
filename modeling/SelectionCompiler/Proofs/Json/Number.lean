import SelectionCompiler.Json.Token
import SelectionCompiler.Proofs.Text.Lexer
import Mathlib.Data.List.Basic
import Mathlib.Tactic.Ring

/-!
Number texts as literals. The text of a number is a well-formed literal, which is read off
together with what follows it, and the exact value of the literal is the number: no two
numbers share a text.
-/

namespace SelectionCompiler

/-! ### Decimals in lowest terms -/

namespace Decimal

theorem reduce_of_lowest {c : Nat} {e : Int} (h : c % 10 ≠ 0 ∨ (c = 0 ∧ e = 0)) :
    reduce c e = (c, e) := by
  rcases h with h | ⟨rfl, rfl⟩
  · have hc : c ≠ 0 := by rintro rfl; exact h rfl
    rw [reduce, if_neg hc, if_neg h]
  · rw [reduce, if_pos rfl]

theorem reduce_mul_pow {c : Nat} (hc : c ≠ 0) (k : Nat) (e : Int) :
    reduce (10 ^ k * c) e = reduce c (e + k) := by
  induction k generalizing e with
  | zero => simp
  | succ k ih =>
      have hne : 10 ^ (k + 1) * c ≠ 0 := Nat.mul_ne_zero (by simp) hc
      have hmul : 10 ^ (k + 1) * c = 10 * (10 ^ k * c) := by ring
      rw [reduce, if_neg hne, if_pos (by omega), hmul, Nat.mul_div_cancel_left _ (by omega), ih]
      congr 1
      push_cast
      ring

/-- Zeros at the end of the coefficient count for the exponent only. -/
theorem ofScaled_mul_pow (d : Decimal) (k : Nat) :
    ofScaled d.negative (10 ^ k * d.coefficient) (d.exponent - k) = d := by
  obtain ⟨negative, c, e, h⟩ := d
  have hreduce : reduce (10 ^ k * c) (e - k) = (c, e) := by
    by_cases hc : c = 0
    · subst hc
      have he : e = 0 := by simpa using h
      rw [Nat.mul_zero, reduce, if_pos rfl, he]
    · rw [reduce_mul_pow hc, Int.sub_add_cancel, reduce_of_lowest h]
  simp only [ofScaled, hreduce]

end Decimal

namespace Json

deriving instance DecidableEq for Number.Literal

namespace Number

/-! ### Digits -/

def IsDigits (ds : List Char) : Prop := ds ≠ [] ∧ ∀ c ∈ ds, c.isDigit = true

/-- The digits of a whole part: the first of several is not zero. -/
def IsWhole (ds : List Char) : Prop := IsDigits ds ∧ (1 < ds.length → ds.head? ≠ some '0')

theorem isDigits_toDigits (n : Nat) : IsDigits (Nat.toDigits 10 n) :=
  ⟨Nat.toDigits_ne_nil, fun _ => Nat.isDigit_of_mem_toDigits (by omega) (by omega)⟩

theorem head?_toDigits {n : Nat} (h : n ≠ 0) : (Nat.toDigits 10 n).head? ≠ some '0' := by
  induction n using Nat.strong_induction_on with
  | _ n ih =>
      rw [Nat.toDigits_eq_if (by omega)]
      split
      · rename_i hlt
        have hdigit : ∀ d < 10, d ≠ 0 → [d.digitChar].head? ≠ some '0' := by decide
        exact hdigit n hlt h
      · rw [List.head?_append_of_ne_nil _ Nat.toDigits_ne_nil]
        exact ih (n / 10) (by omega) (by omega)

theorem isWhole_toDigits (n : Nat) : IsWhole (Nat.toDigits 10 n) := by
  refine ⟨isDigits_toDigits n, fun hlength => head?_toDigits ?_⟩
  rintro rfl
  simp at hlength

/-! ### Literals -/

namespace Literal

def fractionText : Option (List Char) → List Char
  | some ds => '.' :: ds
  | none => []

/-- The exponent always has a sign. -/
def scaleText : Option (Bool × List Char) → List Char
  | some (negative, ds) => 'e' :: (if negative then '-' else '+') :: ds
  | none => []

def text (l : Literal) : List Char :=
  signText l.negative ++ (l.whole ++ (fractionText l.fraction ++ scaleText l.exponent))

structure WellFormed (l : Literal) : Prop where
  whole : IsWhole l.whole
  fraction : ∀ ds ∈ l.fraction, IsDigits ds
  exponent : ∀ e ∈ l.exponent, IsDigits e.2

theorem WellFormed.exists_text_eq_cons {l : Literal} (h : l.WellFormed) :
    ∃ c cs, l.text = c :: cs ∧ (c = '-' ∨ c.isDigit = true) := by
  obtain ⟨negative, whole, fraction, exponent⟩ := l
  match negative, whole, h.whole.1 with
  | true, _, _ => exact ⟨'-', _, rfl, .inl rfl⟩
  | false, d :: _, hdigits => exact ⟨d, _, rfl, .inr (hdigits.2 d List.mem_cons_self)⟩

/-- The number that a literal stands for, without any rounding. -/
def exact (l : Literal) : Number :=
  if l.fraction.isSome || l.exponent.isSome then
    .decimal (.ofScaled l.negative (Nat.ofDigitChars 10 (l.whole ++ l.fraction.getD []) 0)
      (exponentValue l.exponent - (l.fraction.getD []).length))
  else
    let value := Nat.ofDigitChars 10 l.whole 0
    .int (if l.negative then -(value : Int) else value)

end Literal

/-- The literal of digits with a point after the first `point` of them. -/
def pointLiteral (negative : Bool) (digits : List Char) (point : Int) : Literal :=
  if point ≤ 0 then
    ⟨negative, ['0'], some (List.replicate (-point).toNat '0' ++ digits), none⟩
  else
    let whole := digits.take point.toNat
    let fraction := digits.drop point.toNat
    ⟨negative, whole ++ List.replicate (point.toNat - whole.length) '0',
      some (if fraction.isEmpty then ['0'] else fraction), none⟩

def exponentLiteral (negative : Bool) (digits : List Char) (e : Int) : Literal :=
  let exponent := some (decide (e < 0), Nat.toDigits 10 e.natAbs)
  match digits with
  | first :: second :: rest => ⟨negative, [first], some (second :: rest), exponent⟩
  | short => ⟨negative, short, none, exponent⟩

/-- The literal whose text is the text of a number. -/
def literal : Number → Literal
  | .int n => ⟨n < 0, Nat.toDigits 10 n.natAbs, none, none⟩
  | .decimal d =>
      let digits := Nat.toDigits 10 d.coefficient
      let e := d.exponent + digits.length - 1
      if positional e then pointLiteral d.negative digits (e + 1)
      else exponentLiteral d.negative digits e

theorem text_pointLiteral (negative : Bool) (digits : List Char) (point : Int) :
    (pointLiteral negative digits point).text = signText negative ++ pointText digits point := by
  unfold pointLiteral pointText
  split <;> simp [Literal.text, Literal.fractionText, Literal.scaleText]

theorem text_exponentLiteral (negative : Bool) (digits : List Char) (e : Int) :
    (exponentLiteral negative digits e).text = signText negative ++ exponentText digits e := by
  unfold exponentLiteral exponentText
  split <;> simp [Literal.text, Literal.fractionText, Literal.scaleText]

theorem text_literal (n : Number) : n.literal.text = n.text := by
  cases n with
  | int n => simp [literal, Literal.text, Literal.fractionText, Literal.scaleText, text, intText]
  | decimal d =>
      rw [literal, text, decimalText]
      split
      · exact text_pointLiteral _ _ _
      · exact text_exponentLiteral _ _ _

/-! ### Well-formed literals -/

theorem isDigits_append {ds es : List Char} (hds : ∀ c ∈ ds, c.isDigit = true)
    (hes : IsDigits es) : IsDigits (ds ++ es) := by
  refine ⟨by simp [hes.1], fun c hc => ?_⟩
  rcases List.mem_append.mp hc with hc | hc
  · exact hds c hc
  · exact hes.2 c hc

theorem isDigit_of_mem_replicate {n : Nat} {c : Char} (h : c ∈ List.replicate n '0') :
    c.isDigit = true := by
  rw [List.eq_of_mem_replicate h]
  decide

theorem wellFormed_pointLiteral (negative : Bool) {c : Nat} {point : Int}
    (h : c ≠ 0 ∨ point = 1) :
    (pointLiteral negative (Nat.toDigits 10 c) point).WellFormed := by
  have hdigits := isDigits_toDigits c
  unfold pointLiteral
  split
  · refine ⟨⟨⟨by simp, by simp⟩, by simp⟩, ?_, by simp⟩
    rintro ds ⟨⟩
    exact isDigits_append (fun _ => isDigit_of_mem_replicate) hdigits
  · rename_i hpoint
    have htake : (Nat.toDigits 10 c).take point.toNat ≠ [] := by
      simp [Nat.toDigits_ne_nil]
      omega
    refine ⟨⟨⟨by simp [htake], fun d hd => ?_⟩, fun hlength => ?_⟩, ?_, by simp⟩
    · rcases List.mem_append.mp hd with hd | hd
      · exact hdigits.2 d (List.mem_of_mem_take hd)
      · exact isDigit_of_mem_replicate hd
    · rcases h with hc | rfl
      · rw [List.head?_append_of_ne_nil _ htake, List.head?_take, if_neg (by omega)]
        exact head?_toDigits hc
      · simp [List.length_take] at hlength
    · rintro ds ⟨⟩
      split
      · exact ⟨by simp, by simp⟩
      · rename_i hfraction
        exact ⟨by simpa using hfraction, fun d hd => hdigits.2 d (List.mem_of_mem_drop hd)⟩

theorem wellFormed_exponentLiteral (negative : Bool) (c : Nat) (e : Int) :
    (exponentLiteral negative (Nat.toDigits 10 c) e).WellFormed := by
  have hdigits := isDigits_toDigits c
  have hwhole := isWhole_toDigits c
  have hexponent := isDigits_toDigits e.natAbs
  unfold exponentLiteral
  split
  · rename_i first second rest heq
    rw [heq] at hdigits
    refine ⟨⟨⟨by simp, fun d hd => hdigits.2 d ?_⟩, by simp⟩, ?_, ?_⟩
    · rw [List.mem_singleton.mp hd]
      exact List.mem_cons_self
    · rintro ds ⟨⟩
      exact ⟨by simp, fun d hd => hdigits.2 d (List.mem_cons_of_mem _ hd)⟩
    · rintro _ ⟨⟩
      exact hexponent
  · refine ⟨hwhole, by simp, ?_⟩
    rintro _ ⟨⟩
    exact hexponent

theorem wellFormed_literal (n : Number) : n.literal.WellFormed := by
  cases n with
  | int n => exact ⟨isWhole_toDigits n.natAbs, by simp [literal], by simp [literal]⟩
  | decimal d =>
      obtain ⟨negative, c, e, hlowest⟩ := d
      rw [literal]
      split
      · refine wellFormed_pointLiteral negative ?_
        by_cases hc : c = 0
        · subst hc
          have he : e = 0 := by simpa using hlowest
          exact .inr (by simp [he])
        · exact .inl hc
      · exact wellFormed_exponentLiteral negative c _

/-! ### Values of literals -/

theorem exponentValue_toDigits (e : Int) :
    exponentValue (some (decide (e < 0), Nat.toDigits 10 e.natAbs)) = e := by
  simp only [exponentValue, Nat.ofDigitChars_ten_toDigits, decide_eq_true_eq]
  split <;> omega

theorem ofDigitChars_append_zeros (ds : List Char) (k : Nat) :
    Nat.ofDigitChars 10 (ds ++ List.replicate k '0') 0 = 10 ^ k * Nat.ofDigitChars 10 ds 0 := by
  rw [Nat.ofDigitChars_append, Nat.ofDigitChars_replicate_zero]

theorem exact_fraction (negative : Bool) (whole fraction : List Char) :
    Literal.exact ⟨negative, whole, some fraction, none⟩ =
      .decimal (.ofScaled negative (Nat.ofDigitChars 10 (whole ++ fraction) 0)
        (-fraction.length)) := by
  simp [Literal.exact, exponentValue]

theorem exact_pointLiteral (negative : Bool) (c : Nat) (point : Int) :
    ∃ k : Nat, (pointLiteral negative (Nat.toDigits 10 c) point).exact =
      .decimal (.ofScaled negative (10 ^ k * c) (point - (Nat.toDigits 10 c).length - k)) := by
  have hvalue := Nat.ofDigitChars_ten_toDigits (n := c)
  generalize Nat.toDigits 10 c = digits at hvalue
  unfold pointLiteral
  split
  · -- the zeros before the digits count for nothing
    refine ⟨0, ?_⟩
    have hfront : '0' :: (List.replicate (-point).toNat '0' ++ digits) =
        List.replicate ((-point).toNat + 1) '0' ++ digits := rfl
    rw [exact_fraction, List.singleton_append, hfront, Nat.ofDigitChars_append,
      Nat.ofDigitChars_replicate_zero, Nat.mul_zero, hvalue, Nat.pow_zero, Nat.one_mul,
      List.length_append, List.length_replicate]
    congr 2
    omega
  · by_cases hlength : digits.length ≤ point.toNat
    · -- zeros behind the digits, and one more after the point
      have htake : digits.take point.toNat = digits := List.take_of_length_le hlength
      have hdrop : digits.drop point.toNat = [] := List.drop_eq_nil_of_le hlength
      refine ⟨point.toNat - digits.length + 1, ?_⟩
      simp only [htake, hdrop, List.isEmpty_nil, if_true, exact_fraction]
      rw [List.append_assoc, ← List.replicate_succ', ofDigitChars_append_zeros, hvalue]
      congr 2
      simp only [List.length_singleton]
      omega
    · -- the point stands among the digits
      have htake : (digits.take point.toNat).length = point.toNat :=
        List.length_take_of_le (by omega)
      have hdrop : (digits.drop point.toNat).isEmpty = false := by
        simp
        omega
      refine ⟨0, ?_⟩
      simp only [htake, hdrop, Nat.sub_self, List.replicate_zero, List.append_nil,
        Bool.false_eq_true, if_false, exact_fraction]
      rw [List.take_append_drop, hvalue, Nat.pow_zero, Nat.one_mul, List.length_drop]
      congr 2
      omega

theorem exact_exponentLiteral (negative : Bool) (c : Nat) (e : Int) :
    (exponentLiteral negative (Nat.toDigits 10 c) e).exact =
      .decimal (.ofScaled negative c (e - ((Nat.toDigits 10 c).length - 1))) := by
  have hvalue := Nat.ofDigitChars_ten_toDigits (n := c)
  have hlength := List.length_pos_iff.mpr (Nat.toDigits_ne_nil (n := c) (b := 10))
  unfold exponentLiteral
  split
  · rename_i first second rest heq
    rw [heq] at hvalue ⊢
    simp [Literal.exact, exponentValue_toDigits, hvalue]
  · rename_i hshort
    have hone : (Nat.toDigits 10 c).length = 1 := by
      match heq : Nat.toDigits 10 c with
      | [] => simp [heq] at hlength
      | [_] => rfl
      | first :: second :: rest => exact absurd heq (hshort first second rest)
    simp [Literal.exact, exponentValue_toDigits, hvalue, hone]

/-- The text of a number stands for that number, whatever its digits are. -/
theorem exact_literal (n : Number) : n.literal.exact = n := by
  cases n with
  | int n =>
      have hsign : (if n < 0 then -(n.natAbs : Int) else n.natAbs) = n := by
        split <;> omega
      simp only [literal, Literal.exact, Option.isSome_none, Bool.or_self, Bool.false_eq_true,
        if_false, Nat.ofDigitChars_ten_toDigits, decide_eq_true_eq, hsign]
  | decimal d =>
      rw [literal]
      split
      · obtain ⟨k, hk⟩ := exact_pointLiteral d.negative d.coefficient
          (d.exponent + (Nat.toDigits 10 d.coefficient).length - 1 + 1)
        have hexponent : d.exponent + (Nat.toDigits 10 d.coefficient).length - 1 + 1
            - (Nat.toDigits 10 d.coefficient).length - k = d.exponent - k := by
          omega
        rw [hk, hexponent, Decimal.ofScaled_mul_pow]
      · have hexponent : d.exponent + (Nat.toDigits 10 d.coefficient).length - 1
            - ((Nat.toDigits 10 d.coefficient).length - 1) = d.exponent := by
          omega
        have hself := d.ofScaled_mul_pow 0
        rw [Nat.pow_zero, Nat.one_mul, Nat.cast_zero, Int.sub_zero] at hself
        rw [exact_exponentLiteral, hexponent, hself]

theorem literal_injective {m n : Number} (h : m.literal = n.literal) : m = n := by
  rw [← exact_literal m, h, exact_literal n]

end Number

/-! ### Reading -/

namespace Token

open Number

/-- The number literal at the front. -/
def literal? (cs : List Char) : Option (Literal × List Char) := do
  let (negative, rest) := sign cs
  let (whole, rest) ← whole? rest
  let (fraction, rest) ← fraction? rest
  let (exponent, rest) ← exponent? rest
  some (⟨negative, whole, fraction, exponent⟩, rest)

theorem number?_eq (cs : List Char) :
    number? cs =
      (literal? cs).bind fun l => (ofLiteral? l.1).bind fun n => some (n, l.2) := by
  simp [number?, literal?, Option.bind_assoc]

/-- No character at the front could belong to a literal before it. -/
def EndsLiteral (rest : List Char) : Prop :=
  ∀ c ∈ rest.head?, c.isDigit = false ∧ c ≠ '.' ∧ c ≠ 'e' ∧ c ≠ 'E'

variable {ds rest : List Char}

theorem digits?_append (hds : IsDigits ds) (hrest : ∀ c ∈ rest.head?, c.isDigit = false) :
    digits? (ds ++ rest) = some (ds, rest) := by
  simp [digits?, Text.takeWhile_append_of_stop hds.2 hrest, hds.1]

theorem whole?_append (hds : IsWhole ds) (hrest : ∀ c ∈ rest.head?, c.isDigit = false) :
    whole? (ds ++ rest) = some (ds, rest) := by
  rw [whole?, digits?_append hds.1 hrest]
  simpa using hds.2

theorem fraction?_append {fraction : Option (List Char)} (h : ∀ ds ∈ fraction, IsDigits ds)
    (hrest : ∀ c ∈ rest.head?, c.isDigit = false ∧ c ≠ '.') :
    fraction? (Literal.fractionText fraction ++ rest) = some (fraction, rest) := by
  cases fraction with
  | none =>
      match rest with
      | [] => rfl
      | c :: rest =>
          simp only [Literal.fractionText, List.nil_append]
          unfold fraction?
          split
          · rename_i heq
            exact absurd (List.cons.inj heq).1 (hrest c rfl).2
          · rfl
  | some ds =>
      rw [Literal.fractionText, List.cons_append, fraction?,
        digits?_append (h ds rfl) fun c hc => (hrest c hc).1]
      rfl

theorem exponent?_append {exponent : Option (Bool × List Char)}
    (h : ∀ e ∈ exponent, IsDigits e.2) (hrest : EndsLiteral rest) :
    exponent? (Literal.scaleText exponent ++ rest) = some (exponent, rest) := by
  cases exponent with
  | none =>
      match rest with
      | [] => rfl
      | c :: rest => simp [Literal.scaleText, exponent?, hrest c rfl]
  | some e =>
      obtain ⟨negative, ds⟩ := e
      have hdigits := digits?_append (h _ rfl) fun c hc => (hrest c hc).1
      cases negative <;> simp [Literal.scaleText, exponent?, exponentSign, hdigits]

theorem sign_append {negative : Bool} (hds : IsDigits ds) :
    sign (signText negative ++ (ds ++ rest)) = (negative, ds ++ rest) := by
  cases negative with
  | true => rfl
  | false =>
      match ds, hds with
      | d :: ds, hds =>
          have hdigit := hds.2 d List.mem_cons_self
          have hne : d ≠ '-' := by
            rintro rfl
            cases hdigit
          simp [signText, sign, hne]

theorem literal?_append {l : Literal} (h : l.WellFormed) (hrest : EndsLiteral rest) :
    literal? (l.text ++ rest) = some (l, rest) := by
  -- a part ends where the next one that is there begins, and else where the literal does
  have hscale : ∀ c ∈ (Literal.scaleText l.exponent ++ rest).head?,
      c.isDigit = false ∧ c ≠ '.' := by
    cases hexponent : l.exponent with
    | none => exact fun c hc => ⟨(hrest c hc).1, (hrest c hc).2.1⟩
    | some e => simp [Literal.scaleText]
  have hfraction : ∀ c ∈ (Literal.fractionText l.fraction ++
      (Literal.scaleText l.exponent ++ rest)).head?, c.isDigit = false := by
    cases hfraction : l.fraction with
    | none => exact fun c hc => (hscale c hc).1
    | some ds => simp [Literal.fractionText]
  rw [Literal.text, List.append_assoc, List.append_assoc, List.append_assoc, literal?,
    sign_append h.whole.1]
  simp only [whole?_append h.whole hfraction, fraction?_append h.fraction hscale,
    exponent?_append h.exponent hrest, Option.bind_eq_bind, Option.bind_some]

end Token

end Json

end SelectionCompiler
