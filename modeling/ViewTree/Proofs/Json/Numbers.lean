import Mathlib.Data.List.TakeWhile
import ViewTree.Json.Token
import ViewTree.Json.Writer
import ViewTree.Proofs.Number.Rounding
import ViewTree.Proofs.Text.Quoted

/-!
# Numbers that are written are read

The text of a number is read as a literal, and the literal, rounded, is the number it was written
for (`numberChars_eq`). For an integer that is a matter of digits. A double takes two steps, because
the digits that are written are not those that were found: zeros at the end are dropped, and a zero
stands behind the point where nothing else does. What is read is another decimal, but it is the same
number (`value_respelled`), and decimals that are the same number are read as the same double. This
is a matter of rounding once. A literal that is scaled may come out as another double, so nothing of
the kind is said of that.

A number has no end of its own. It ends where something follows that could not continue it, which
in a text is a blank, a comma, a closing bracket or nothing. `EndsNumber` is what all of them have
in common, and every statement about reading a number asks for it.
-/

set_option autoImplicit false

namespace ViewTree

/-! ## Runs of digits -/

/-- A run of digits that is not empty. -/
structure Digits (ds : List Char) : Prop where
  ne_nil : ds ≠ []
  isDigit : ∀ c ∈ ds, c.isDigit = true

theorem digits_zero : Digits ['0'] :=
  ⟨List.cons_ne_nil _ _, List.forall_mem_singleton.mpr (by decide)⟩

theorem Digits.append {ds es : List Char} (hd : Digits ds) (he : ∀ c ∈ es, c.isDigit = true) :
    Digits (ds ++ es) := by
  refine ⟨List.append_ne_nil_of_left_ne_nil hd.ne_nil es, fun c hc => ?_⟩
  rcases List.mem_append.mp hc with hc | hc
  · exact hd.isDigit c hc
  · exact he c hc

theorem isDigit_of_mem_replicate {n : Nat} {c : Char} (h : c ∈ List.replicate n '0') :
    c.isDigit = true := by
  rw [List.eq_of_mem_replicate h]
  decide

namespace Decimal

theorem digits_digitsOf (n : Nat) : Digits (digitsOf n) :=
  ⟨Nat.toDigits_ne_nil, fun _ hc => Nat.isDigit_of_mem_toDigits (by decide) (by decide) hc⟩

@[simp] theorem valueOf_digitsOf (n : Nat) : valueOf (digitsOf n) = n :=
  Nat.ofDigitChars_ten_toDigits

theorem valueOf_append (ds es : List Char) :
    valueOf (ds ++ es) = 10 ^ es.length * valueOf ds + valueOf es := by
  rw [valueOf, Nat.ofDigitChars_append, Nat.ofDigitChars_eq_ofDigitChars_zero]
  rfl

@[simp] theorem valueOf_replicate (n : Nat) : valueOf (List.replicate n '0') = 0 :=
  Nat.ofDigitChars_replicate_zero.trans (Nat.mul_zero _)

/-- The digits of a positive number do not begin with a zero. -/
theorem head?_digitsOf {n : Nat} (hn : 0 < n) : (digitsOf n).head? ≠ some '0' := by
  induction n using Nat.strong_induction_on with
  | _ n ih =>
    unfold digitsOf at ih ⊢
    by_cases hsmall : n < 10
    · have hdigit : ∀ m < 10, 0 < m → [m.digitChar].head? ≠ some '0' := by decide
      rw [Nat.toDigits_of_lt_base hsmall]
      exact hdigit n hsmall hn
    · have hlarge : 10 ≤ n := not_lt.mp hsmall
      rw [Nat.toDigits_of_base_le (by decide) hlarge, List.head?_append_of_ne_nil _
        Nat.toDigits_ne_nil]
      exact ih (n / 10) (by omega) (by omega)

end Decimal

open Decimal (digitsOf valueOf valueOf_append valueOf_replicate valueOf_digitsOf)

namespace Spelling

theorem eq_dropFinalZeros_append (ds : List Char) :
    ∃ k, ds = dropFinalZeros ds ++ List.replicate k '0' := by
  refine ⟨(ds.reverse.takeWhile (· = '0')).length, ?_⟩
  have hzeros : ds.reverse.takeWhile (· = '0') =
      List.replicate (ds.reverse.takeWhile (· = '0')).length '0' := by
    refine List.eq_replicate_iff.mpr ⟨rfl, fun c hc => ?_⟩
    simpa using List.mem_takeWhile_imp hc
  rw [dropFinalZeros, ← List.reverse_replicate, ← hzeros, ← List.reverse_append,
    List.takeWhile_append_dropWhile, List.reverse_reverse]

/-- What is shown of a positive number is a run of digits that does not begin with a zero, and only
zeros are missing at its end. -/
theorem dropFinalZeros_digitsOf {n : Nat} (hn : 0 < n) :
    Digits (dropFinalZeros (digitsOf n)) ∧ (dropFinalZeros (digitsOf n)).head? ≠ some '0' ∧
      ∃ k, (digitsOf n).length = (dropFinalZeros (digitsOf n)).length + k ∧
        n = valueOf (dropFinalZeros (digitsOf n)) * 10 ^ k := by
  obtain ⟨k, hk⟩ := eq_dropFinalZeros_append (digitsOf n)
  have hvalue : n = valueOf (dropFinalZeros (digitsOf n)) * 10 ^ k := by
    conv_lhs => rw [← valueOf_digitsOf n, hk]
    rw [valueOf_append, valueOf_replicate, List.length_replicate, Nat.add_zero, Nat.mul_comm]
  have hne : dropFinalZeros (digitsOf n) ≠ [] := by
    intro hnil
    rw [hnil, show valueOf [] = 0 from rfl, Nat.zero_mul] at hvalue
    exact hn.ne' hvalue
  refine ⟨⟨hne, fun c hc => ?_⟩, ?_, k, ?_, hvalue⟩
  · refine (Decimal.digits_digitsOf n).isDigit c ?_
    rw [hk]
    exact List.mem_append_left _ hc
  · have hhead := Decimal.head?_digitsOf hn
    rwa [hk, List.head?_append_of_ne_nil _ hne] at hhead
  · conv_lhs => rw [hk]
    rw [List.length_append, List.length_replicate]

/-! ## The decimal that is spelled -/

/-- The decimal that the text of a positive decimal spells. -/
def respelled (style : Spelling) (d : Decimal) : Decimal :=
  let digits := digitsOf d.significand
  let point := digits.length + d.exponent
  let shown := dropFinalZeros digits
  if style.leastPoint ≤ point ∧ point ≤ style.greatestPoint ∧ 0 < point ∧ shown.length ≤ point then
    ⟨valueOf shown * 10 ^ (point.toNat - shown.length + 1), -1⟩
  else ⟨valueOf shown, point - shown.length⟩

/-- The decimal that the text of a double spells. -/
def spelled (style : Spelling) (x : Double) : Decimal :=
  if x.isZero then ⟨0, -1⟩ else style.respelled (x.shortest style.tie)

theorem value_respelled (style : Spelling) {d : Decimal} (hd : 0 < d.significand) :
    (style.respelled d).value = d.value := by
  obtain ⟨-, -, k, hlength, hvalue⟩ := dropFinalZeros_digitsOf hd
  have hshown : d.value =
      valueOf (dropFinalZeros (digitsOf d.significand)) * 10 ^ (k + d.exponent : ℤ) := by
    rw [Decimal.value, zpow_add₀ (by norm_num), zpow_natCast, ← mul_assoc]
    congr 1
    exact_mod_cast hvalue
  unfold respelled
  simp only
  split
  · rename_i hpositional
    obtain ⟨-, -, -, hlong⟩ := hpositional
    rw [hshown, Decimal.value]
    push_cast
    rw [mul_assoc, ← zpow_natCast, ← zpow_add₀ (by norm_num)]
    congr 2
    omega
  · have hexponent : ((digitsOf d.significand).length : ℤ) + d.exponent -
        (dropFinalZeros (digitsOf d.significand)).length = k + d.exponent := by omega
    rw [hshown, Decimal.value, hexponent]

theorem shortest_pos (tie : Tie) {x : Double} (hx : x.isZero = false) :
    0 < (x.shortest tie).significand := by
  refine Nat.pos_of_ne_zero fun hzero => ?_
  have hread := x.toDouble_shortest tie
  rw [Decimal.toDouble, if_pos hzero] at hread
  rw [← Option.some.inj hread] at hx
  exact absurd hx (by simp [Double.isZero, Double.zero])

theorem toDouble_spelled (style : Spelling) (x : Double) :
    (style.spelled x).toDouble x.negative = some x := by
  unfold spelled
  cases hx : x.isZero with
  | true =>
    obtain ⟨negative, rank⟩ := x
    have hrank : rank = ⟨0, by decide⟩ := Fin.ext (of_decide_eq_true hx)
    subst hrank
    rfl
  | false =>
    rw [if_neg (by simp), Decimal.toDouble_congr x.negative
      (value_respelled style (shortest_pos style.tie hx))]
    exact x.toDouble_shortest style.tie

end Spelling

/-! ## Reading -/

namespace Json

/-- What follows a number does not continue it. -/
def EndsNumber (rest : List Char) : Prop :=
  ∀ c ∈ rest.head?, c.isDigit = false ∧ c ≠ '.' ∧ c ≠ 'e' ∧ c ≠ 'E'

variable {ds rest : List Char}

theorem EndsNumber.noDigit (h : EndsNumber rest) : ∀ c ∈ rest.head?, c.isDigit = false :=
  fun c hc => (h c hc).1

theorem digits_append (hd : Digits ds) (h : ∀ c ∈ rest.head?, c.isDigit = false) :
    digits (ds ++ rest) = .ok (ds, rest) := by
  rw [digits, List.takeWhile_append_of_pos hd.isDigit, List.dropWhile_append_of_pos hd.isDigit,
    Text.takeWhile_of_stops h, Text.dropWhile_of_stops h, List.append_nil, if_neg hd.ne_nil]

theorem wholePart_append (hd : Digits ds) (hzero : ds = ['0'] ∨ ds.head? ≠ some '0')
    (h : ∀ c ∈ rest.head?, c.isDigit = false) : wholePart (ds ++ rest) = .ok (ds, rest) := by
  rcases hzero with rfl | hzero
  · rw [List.singleton_append, wholePart, Text.takeWhile_of_stops h]
    rfl
  · obtain ⟨c, cs, rfl⟩ := List.exists_cons_of_ne_nil hd.ne_nil
    have hc : c ≠ '0' := fun he => hzero (congrArg some he)
    rw [← digits_append hd h, List.cons_append, wholePart]
    exact fun _ he => hc (List.cons.inj he).1

theorem fractionPart_append (hd : Digits ds) (h : ∀ c ∈ rest.head?, c.isDigit = false) :
    fractionPart ('.' :: (ds ++ rest)) = .ok (some ds, rest) := by
  rw [fractionPart, digits_append hd h]
  rfl

theorem fractionPart_of_ne (h : ∀ c ∈ rest.head?, c ≠ '.') :
    fractionPart rest = .ok (none, rest) := by
  cases rest with
  | nil => rfl
  | cons c cs =>
    rw [fractionPart]
    exact fun tail he => h c rfl (List.cons.inj he).1

theorem exponentPart_of_ne (h : ∀ c ∈ rest.head?, c ≠ 'e' ∧ c ≠ 'E') :
    exponentPart rest = .ok (none, rest) := by
  cases rest with
  | nil => rfl
  | cons c cs =>
    obtain ⟨hlower, hupper⟩ := h c rfl
    rw [exponentPart, if_neg (not_or.mpr ⟨hlower, hupper⟩)]

theorem signPart_append (hd : Digits ds) (signed : Bool) (e : Int) :
    signPart ((if e < 0 then ['-'] else if signed then ['+'] else []) ++ (ds ++ rest)) =
      (decide (e < 0), ds ++ rest) := by
  by_cases hneg : e < 0
  · rw [if_pos hneg, decide_eq_true hneg]
    rfl
  · rw [if_neg hneg, decide_eq_false hneg]
    cases signed with
    | true => rfl
    | false =>
      obtain ⟨c, cs, rfl⟩ := List.exists_cons_of_ne_nil hd.ne_nil
      have hc : c.isDigit = true := hd.isDigit c List.mem_cons_self
      have hminus : c ≠ '-' := fun he => absurd hc (by rw [he]; decide)
      have hplus : c ≠ '+' := fun he => absurd hc (by rw [he]; decide)
      rw [if_neg Bool.false_ne_true, List.nil_append, List.cons_append, signPart]
      · exact fun _ he => hminus (List.cons.inj he).1
      · exact fun _ he => hplus (List.cons.inj he).1

/-- An exponent is read back, whether or not a positive one has a sign. -/
theorem exponentPart_append (signed : Bool) (e : Int) (h : ∀ c ∈ rest.head?, c.isDigit = false) :
    exponentPart ('e' :: ((if e < 0 then ['-'] else if signed then ['+'] else []) ++
      (digitsOf e.natAbs ++ rest))) = .ok (some e, rest) := by
  have hdigits := Decimal.digits_digitsOf e.natAbs
  rw [exponentPart, if_pos (.inl rfl), signPart_append hdigits]
  simp only [digits_append hdigits h, Except.map, valueOf_digitsOf, decide_eq_true_eq]
  congr 3
  split <;> omega

/-- A number is read as a literal that is not whole and has a decimal for its magnitude. -/
def ReadsAs (negative : Bool) (cs rest : List Char) (d : Decimal) : Prop :=
  ∃ l : Literal, number negative cs = .ok (l, rest) ∧ l.isWhole = false ∧ l.negative = negative ∧
    l.magnitude = d

/-- A number is read part by part. -/
theorem number_of_parts (negative : Bool) {cs behindWhole behindFraction whole : List Char}
    {fraction : Option (List Char)} {exponent : Option Int}
    (hwhole : wholePart cs = .ok (whole, behindWhole))
    (hfraction : fractionPart behindWhole = .ok (fraction, behindFraction))
    (hexponent : exponentPart behindFraction = .ok (exponent, rest)) :
    number negative cs = .ok (⟨negative, whole, fraction, exponent⟩, rest) := by
  simp only [number, hwhole, hfraction, hexponent, bind, Except.bind]
  rfl

/-- A number with a fraction or an exponent is read as a decimal. -/
theorem readsAs_of_parts (negative : Bool) {cs behindWhole behindFraction whole : List Char}
    {fraction : Option (List Char)} {exponent : Option Int}
    (hwhole : wholePart cs = .ok (whole, behindWhole))
    (hfraction : fractionPart behindWhole = .ok (fraction, behindFraction))
    (hexponent : exponentPart behindFraction = .ok (exponent, rest))
    (hsome : fraction.isSome ∨ exponent.isSome) :
    ReadsAs negative cs rest
      ⟨valueOf (whole ++ fraction.getD []), exponent.getD 0 - (fraction.getD []).length⟩ := by
  refine ⟨_, number_of_parts negative hwhole hfraction hexponent, ?_, rfl, rfl⟩
  rw [Literal.isWhole, Bool.and_eq_false_iff, Option.isNone_eq_false_iff,
    Option.isNone_eq_false_iff]
  exact hsome

theorem number_digits (hd : Digits ds) (hzero : ds = ['0'] ∨ ds.head? ≠ some '0')
    (h : EndsNumber rest) (negative : Bool) :
    number negative (ds ++ rest) = .ok (⟨negative, ds, none, none⟩, rest) :=
  number_of_parts negative (wholePart_append hd hzero h.noDigit)
    (fractionPart_of_ne fun c hc => (h c hc).2.1) (exponentPart_of_ne fun c hc => (h c hc).2.2)

/-! ## Doubles -/

theorem noDigit_cons {c : Char} (hc : c.isDigit = false) (cs : List Char) :
    ∀ d ∈ (c :: cs).head?, d.isDigit = false := by
  intro d hd
  obtain rfl := Option.some.inj hd
  exact hc

/-- Digits on both sides of a point. -/
theorem number_pointed (negative : Bool) {whole fraction : List Char} (hwhole : Digits whole)
    (hzero : whole = ['0'] ∨ whole.head? ≠ some '0') (hfraction : Digits fraction)
    (h : EndsNumber rest) :
    ReadsAs negative (whole ++ '.' :: fraction ++ rest) rest
      ⟨valueOf (whole ++ fraction), -fraction.length⟩ := by
  have hparts := readsAs_of_parts negative
    (wholePart_append hwhole hzero (noDigit_cons (c := '.') (by decide) _))
    (fractionPart_append hfraction h.noDigit) (exponentPart_of_ne fun c hc => (h c hc).2.2)
    (.inl rfl)
  rw [Option.getD_some, Option.getD_none, Int.zero_sub] at hparts
  rw [List.append_assoc]
  exact hparts

theorem number_positional (hd : Digits ds) (hzero : ds.head? ≠ some '0') (h : EndsNumber rest)
    (negative : Bool) (point : Int) :
    ReadsAs negative (Spelling.positional ds point ++ rest) rest
      (if 0 < point ∧ ds.length ≤ point then
        ⟨valueOf ds * 10 ^ (point.toNat - ds.length + 1), -1⟩
      else ⟨valueOf ds, point - ds.length⟩) := by
  unfold Spelling.positional
  by_cases hleft : point ≤ 0
  · -- All digits stand behind the point, perhaps with zeros between.
    have hfraction : Digits (List.replicate (-point).toNat '0' ++ ds) := by
      refine ⟨List.append_ne_nil_of_right_ne_nil _ hd.ne_nil, fun c hc => ?_⟩
      rcases List.mem_append.mp hc with hc | hc
      · exact isDigit_of_mem_replicate hc
      · exact hd.isDigit c hc
    have hvalue : valueOf (['0'] ++ (List.replicate (-point).toNat '0' ++ ds)) = valueOf ds := by
      rw [← List.append_assoc, valueOf_append, valueOf_append, valueOf_replicate]
      simp [valueOf, Nat.ofDigitChars_cons]
    have hlength : -((List.replicate (-point).toNat '0' ++ ds).length : ℤ) =
        point - ds.length := by
      rw [List.length_append, List.length_replicate]
      omega
    rw [if_pos hleft, if_neg (by omega), ← hvalue, ← hlength]
    exact number_pointed negative digits_zero (.inl rfl) hfraction h
  by_cases hmiddle : point < ds.length
  · -- The point stands between two digits.
    obtain ⟨n, rfl⟩ : ∃ n : ℕ, point = n := ⟨point.toNat, by omega⟩
    have hwhole : Digits (ds.take n) := by
      refine ⟨?_, fun c hc => hd.isDigit c (List.mem_of_mem_take hc)⟩
      rw [ne_eq, List.take_eq_nil_iff]
      exact not_or.mpr ⟨by omega, hd.ne_nil⟩
    have hfraction : Digits (ds.drop n) := by
      refine ⟨?_, fun c hc => hd.isDigit c (List.mem_of_mem_drop hc)⟩
      rw [ne_eq, List.drop_eq_nil_iff]
      omega
    have hhead : (ds.take n).head? ≠ some '0' := by
      rwa [List.head?_take, if_neg (by omega)]
    have hlength : -((ds.drop n).length : ℤ) = n - ds.length := by
      rw [List.length_drop]
      omega
    have hread := number_pointed negative hwhole (.inr hhead) hfraction h
    rw [List.take_append_drop, hlength] at hread
    rwa [if_neg hleft, if_pos hmiddle, if_neg (by omega), Int.toNat_natCast]
  · -- All digits stand in front of the point, perhaps with zeros between, and a zero behind it.
    have hwhole : Digits (ds ++ List.replicate (point.toNat - ds.length) '0') :=
      hd.append fun c hc => isDigit_of_mem_replicate hc
    have hhead : (ds ++ List.replicate (point.toNat - ds.length) '0').head? ≠ some '0' := by
      rwa [List.head?_append_of_ne_nil _ hd.ne_nil]
    have hvalue : valueOf (ds ++ List.replicate (point.toNat - ds.length) '0' ++ ['0']) =
        valueOf ds * 10 ^ (point.toNat - ds.length + 1) := by
      rw [List.append_assoc, ← List.replicate_succ', valueOf_append, valueOf_replicate,
        List.length_replicate, Nat.add_zero, Nat.mul_comm]
    rw [if_neg hleft, if_neg hmiddle, if_pos (by omega), ← hvalue]
    exact number_pointed negative hwhole (.inr hhead) digits_zero h

theorem number_scientific (hd : Digits ds) (hzero : ds.head? ≠ some '0') (h : EndsNumber rest)
    (negative signed : Bool) (point : Int) :
    ReadsAs negative (Spelling.scientific signed ds point ++ rest) rest
      ⟨valueOf ds, point - ds.length⟩ := by
  have hexponent := exponentPart_append signed (point - 1) h.noDigit
  have he (cs : List Char) := noDigit_cons (c := 'e') (by decide) cs
  unfold Spelling.scientific
  match ds, hd, hzero with
  | [], hd, _ => exact absurd rfl hd.ne_nil
  | [first], hd, hzero =>
    have hparts := readsAs_of_parts negative (wholePart_append hd (.inr hzero) (he _))
      (fractionPart_of_ne (by simp)) hexponent (.inr rfl)
    rw [Option.getD_none, Option.getD_some, List.append_nil] at hparts
    simp only [List.append_assoc, List.cons_append, List.nil_append, List.length_nil,
      List.length_singleton, Nat.cast_zero, sub_zero, Nat.cast_one] at hparts ⊢
    exact hparts
  | first :: second :: more, hd, hzero =>
    have hbehind : Digits (second :: more) :=
      ⟨by simp, fun c hc => hd.isDigit c (List.mem_cons_of_mem _ hc)⟩
    have hwhole : Digits [first] :=
      ⟨by simp, fun c hc => hd.isDigit c (by rw [List.mem_singleton.mp hc]; simp)⟩
    have hparts := readsAs_of_parts negative
      (wholePart_append hwhole (.inr hzero) (noDigit_cons (c := '.') (by decide) _))
      (fractionPart_append hbehind (he _)) hexponent (.inl rfl)
    rw [Option.getD_some, Option.getD_some, List.singleton_append] at hparts
    have hplaces : point - 1 - ((second :: more).length : ℤ) =
        point - (first :: second :: more).length := by
      simp only [List.length_cons]
      omega
    rw [hplaces] at hparts
    simp only [List.append_assoc, List.cons_append, List.nil_append] at hparts ⊢
    exact hparts

theorem number_magnitude (style : Spelling) {d : Decimal} (hd : 0 < d.significand)
    (h : EndsNumber rest) (negative : Bool) :
    ReadsAs negative (style.magnitude d ++ rest) rest (style.respelled d) := by
  obtain ⟨hshown, hzero, -⟩ := Spelling.dropFinalZeros_digitsOf hd
  unfold Spelling.magnitude Spelling.respelled
  simp only
  split
  · rename_i hrange
    have hread := number_positional hshown hzero h negative
      ((digitsOf d.significand).length + d.exponent)
    simpa only [hrange, true_and] using hread
  · rename_i hrange
    rw [if_neg fun hlong => hrange ⟨hlong.1, hlong.2.1⟩]
    exact number_scientific hshown hzero h negative style.signedExponent _

/-! ## Numbers -/

theorem ofInt?_value (n : Integer) : Integer.ofInt? n.value = some n := by
  obtain ⟨value, lower, upper⟩ := n
  cases value with
  | ofNat n => exact dif_pos (Int.ofNat_lt.mp upper)
  | negSucc n => exact dif_pos (by omega)

/-- The digits of an integer, with its sign, are the integer. -/
theorem rounded?_digits (n : Integer) :
    (⟨decide (n.value < 0), digitsOf n.value.natAbs, none, none⟩ : Literal).rounded? =
      some (.integer n) := by
  have hfits := ofInt?_value n
  have hwhole : (⟨decide (n.value < 0), digitsOf n.value.natAbs, none, none⟩ : Literal).integer? =
      some n := by
    simp only [Literal.integer?, Literal.isWhole, valueOf_digitsOf, Option.isNone_none,
      Bool.and_self, Bool.not_true, Bool.false_eq_true, if_false]
    by_cases hneg : n.value < 0
    · have hvalue : -(n.value.natAbs : ℤ) = n.value := by omega
      have hne : n.value.natAbs ≠ 0 := by omega
      simp only [decide_eq_true hneg, Bool.not_true, Bool.false_eq_true, if_false, if_neg hne,
        hvalue, hfits]
    · have hvalue : (n.value.natAbs : ℤ) = n.value := by omega
      simp only [decide_eq_false hneg, Bool.not_false, if_true, hvalue, hfits]
  rw [Literal.rounded?, hwhole]

/-- A double is what is read of a decimal that is rounded to it. -/
theorem ReadsAs.rounded {negative : Bool} {cs : List Char} {d : Decimal} {x : Double}
    (h : ReadsAs negative cs rest d) (hx : d.toDouble negative = some x) :
    ∃ l, number negative cs = .ok (l, rest) ∧ l.rounded? = some (.float x) := by
  obtain ⟨l, hread, hwhole, hsign, hmagnitude⟩ := h
  refine ⟨l, hread, ?_⟩
  rw [Literal.rounded?, Literal.integer?, hwhole, Bool.not_false, if_pos rfl, hsign, hmagnitude, hx]
  rfl

theorem endsNumber_nil : EndsNumber [] := fun _ hc => absurd hc (by simp)

/-- Without a digit in front nothing is read as a literal. -/
theorem exists_digit_of_number {negative : Bool} {cs : List Char} {result : Literal × List Char}
    (h : number negative cs = .ok result) : ∃ c tail, cs = c :: tail ∧ c.isDigit = true := by
  cases cs with
  | nil => exact absurd h (by simp [number, wholePart, digits, bind, Except.bind])
  | cons c tail =>
    refine ⟨c, tail, rfl, ?_⟩
    by_contra hc
    have hwhole : wholePart (c :: tail) = .error .malformed := by
      have hne : c ≠ '0' := fun he => hc (by rw [he]; decide)
      rw [wholePart, digits, List.takeWhile_cons, if_neg hc, if_pos rfl]
      · rfl
      · exact fun _ he => hne (List.cons.inj he).1
    rw [number, hwhole] at h
    exact absurd h (by simp [bind, Except.bind])

/-- **The characters of a number are its sign and a literal that is rounded to the number.** -/
theorem numberChars_eq (n : Number) : ∃ (negative : Bool) (cs : List Char),
    numberChars n = (if negative then ['-'] else []) ++ cs ∧
      ∀ rest, EndsNumber rest →
        ∃ l, number negative (cs ++ rest) = .ok (l, rest) ∧ l.rounded? = some n := by
  cases n with
  | integer n =>
    have hdigits := Decimal.digits_digitsOf n.value.natAbs
    have hzero : digitsOf n.value.natAbs = ['0'] ∨ (digitsOf n.value.natAbs).head? ≠ some '0' := by
      rcases Nat.eq_zero_or_pos n.value.natAbs with hn | hn
      · exact .inl (by rw [hn]; rfl)
      · exact .inr (Decimal.head?_digitsOf hn)
    refine ⟨decide (n.value < 0), digitsOf n.value.natAbs, ?_, fun rest h =>
      ⟨_, number_digits hdigits hzero h _, rounded?_digits n⟩⟩
    rw [numberChars, integerChars]
    by_cases hneg : n.value < 0
    · rw [if_pos hneg, decide_eq_true hneg]
      rfl
    · rw [if_neg hneg, decide_eq_false hneg]
      rfl
  | float x =>
    have hdouble := Spelling.toDouble_spelled Spelling.json x
    rw [Spelling.spelled] at hdouble
    by_cases hx : x.isZero = true
    · rw [if_pos hx] at hdouble
      refine ⟨x.negative, ['0', '.', '0'], ?_, fun rest h => ReadsAs.rounded ?_ hdouble⟩
      · rw [numberChars, Spelling.chars, if_pos hx]
      · exact readsAs_of_parts x.negative
          (wholePart_append digits_zero (.inl rfl) (noDigit_cons (c := '.') (by decide) _))
          (fractionPart_append digits_zero h.noDigit)
          (exponentPart_of_ne fun c hc => (h c hc).2.2) (.inl rfl)
    · have hpos := Spelling.shortest_pos Spelling.json.tie (Bool.eq_false_iff.mpr hx)
      rw [if_neg hx] at hdouble
      refine ⟨x.negative, Spelling.json.magnitude (x.shortest Spelling.json.tie), ?_,
        fun rest h => (number_magnitude Spelling.json hpos h x.negative).rounded hdouble⟩
      rw [numberChars, Spelling.chars, if_neg hx]

end Json

end ViewTree
