import ViewTree.Proofs.Json.Writing

/-!
# Values inside a line

A value in compact form can stand in the middle of a line. It has **no line break**, for those in
its strings are escaped and there are no others. And it says where it **ends**: of two values with
what follows them, if the characters are the same, the values are, and so is what follows
(`chars_append_inj`). Only a number could go on, so that is excluded of what follows.

This does not depend on how numbers are spelled. Three things are asked of the spelling
(`NumberText`), and whatever a library does with exponents, signs and zeros, it should have these.
So there is no reader in the argument, for none is known that reads every such spelling. It goes by
the first character: it says what kind of value begins, because numbers have characters of their own
and the other kinds are told apart by theirs.

What a line needs of a writer is stated apart (`Inline`), since nothing there looks inside a value.
-/

set_option autoImplicit false

namespace ViewTree

/-! ## Numbers -/

namespace Spelling

/-- The characters that numbers are made of. -/
def isNumeric (c : Char) : Bool :=
  c.isDigit || c = '-' || c = '+' || c = '.' || c = 'e' || c = 'E'

theorem isNumeric_of_isDigit {c : Char} (h : c.isDigit = true) : isNumeric c = true := by
  rw [isNumeric, h]
  rfl

theorem isNumeric_digitsOf (n : Nat) : ∀ c ∈ Decimal.digitsOf n, isNumeric c = true := fun c hc =>
  isNumeric_of_isDigit ((Decimal.digits_digitsOf n).isDigit c hc)

theorem isNumeric_replicate (n : Nat) : ∀ c ∈ List.replicate n '0', isNumeric c = true :=
  fun _ hc => isNumeric_of_isDigit (isDigit_of_mem_replicate hc)

theorem isNumeric_dropFinalZeros {ds : List Char} (h : ∀ c ∈ ds, isNumeric c = true) :
    ∀ c ∈ dropFinalZeros ds, isNumeric c = true := by
  obtain ⟨k, hk⟩ := eq_dropFinalZeros_append ds
  intro c hc
  refine h c ?_
  rw [hk]
  exact List.mem_append_left _ hc

variable {ds : List Char} (h : ∀ c ∈ ds, isNumeric c = true)

include h

theorem isNumeric_positional (point : Int) : ∀ c ∈ positional ds point, isNumeric c = true := by
  unfold positional
  split
  · simp only [List.cons_append, List.forall_mem_cons, List.forall_mem_append]
    exact ⟨by decide, by decide, isNumeric_replicate _, h⟩
  · split
    · simp only [List.forall_mem_append, List.forall_mem_cons]
      exact ⟨fun c hc => h c (List.mem_of_mem_take hc), by decide,
        fun c hc => h c (List.mem_of_mem_drop hc)⟩
    · simp only [List.forall_mem_append]
      exact ⟨⟨h, isNumeric_replicate _⟩, List.all_eq_true.mp rfl⟩

theorem isNumeric_scientific (signed : Bool) (point : Int) :
    ∀ c ∈ scientific signed ds point, isNumeric c = true := by
  have hsign : ∀ c ∈ 'e' :: (if point - 1 < 0 then ['-'] else if signed then ['+'] else []),
      isNumeric c = true := by
    repeat' split
    all_goals exact List.all_eq_true.mp rfl
  unfold scientific
  simp only [List.forall_mem_append]
  refine ⟨⟨?_, hsign⟩, isNumeric_digitsOf _⟩
  cases ds with
  | nil => exact h
  | cons first rest =>
    cases rest with
    | nil => exact h
    | cons second rest =>
      rw [List.forall_mem_cons] at h
      exact List.forall_mem_cons.mpr ⟨h.1, List.forall_mem_cons.mpr ⟨by decide, h.2⟩⟩

end Spelling

namespace Json

open Spelling (isNumeric)
open Text (Stops run_append_inj stops_cons)

theorem isNumeric_numberChars (n : Number) : ∀ c ∈ numberChars n, isNumeric c = true := by
  cases n with
  | integer n =>
    rw [numberChars, integerChars]
    split
    · exact List.forall_mem_cons.mpr ⟨by decide, Spelling.isNumeric_digitsOf _⟩
    · exact Spelling.isNumeric_digitsOf _
  | float x =>
    rw [numberChars, Spelling.chars, List.forall_mem_append]
    constructor
    · split <;> exact List.all_eq_true.mp rfl
    · split
      · exact List.all_eq_true.mp rfl
      · have hshown := Spelling.isNumeric_dropFinalZeros
          (Spelling.isNumeric_digitsOf (x.shortest Spelling.json.tie).significand)
        rw [Spelling.magnitude]
        split
        · exact Spelling.isNumeric_positional hshown _
        · exact Spelling.isNumeric_scientific hshown _ _

/-! ## Lines -/

theorem newline_not_mem_escape (c : Char) : '\n' ∉ escape c := by
  rcases escape_cases c with ⟨letter, hc, -, hletter⟩ | ⟨hc, hcontrol⟩ | ⟨hc, -, -, hcontrol⟩
  · have hne : '\n' ≠ letter := by
      rintro rfl
      exact absurd hletter (by simp [unescape, Text.unescape])
    simp [hc, hne]
  · have hdigit : ∀ n < 32, '\n' ≠ Nat.digitChar (n / 16) ∧ '\n' ≠ Nat.digitChar (n % 16) := by
      decide
    obtain ⟨hfirst, hsecond⟩ := hdigit c.toNat hcontrol
    simp [hc, hfirst, hsecond]
  · rw [hc, List.mem_singleton]
    rintro rfl
    exact hcontrol (by decide)

theorem newline_not_mem_stringChars (s : String) : '\n' ∉ stringChars s := by
  have hcontent : '\n' ∉ s.toList.flatMap escape := by
    intro h
    obtain ⟨c, -, hc⟩ := List.mem_flatMap.mp h
    exact newline_not_mem_escape c hc
  simp [stringChars, hcontent]

theorem gap_compact (depth : Nat) : Blanks.compact.gap depth = [] := rfl

theorem afterColon_compact : Blanks.compact.afterColon = [] := rfl

/-- **What is asked of a spelling of numbers.** It is not empty, it consists of the characters of
numbers, and no two numbers have the same. -/
structure NumberText (num : Number → List Char) : Prop where
  ne_nil : ∀ n, num n ≠ []
  numeric : ∀ n, ∀ c ∈ num n, isNumeric c = true
  inj : ∀ m n, num m = num n → m = n

/-- A spelling that a conversion undoes is the spelling of one number only. -/
theorem Undoes.inj {convert : Conversion} {num : Number → List Char} (h : Undoes convert num)
    {m n : Number} (heq : num m = num n) : m = n := by
  obtain ⟨c, cs, l, hchars, -, htoken, hl⟩ := h m [] endsNumber_nil
  obtain ⟨c', cs', l', hchars', -, htoken', hl'⟩ := h n [] endsNumber_nil
  rw [heq, hchars'] at hchars
  obtain ⟨rfl, rfl⟩ := List.cons.inj hchars
  have hliteral : l' = l := by
    simpa only [Prod.mk.injEq, Token.number.injEq, and_true] using htoken'.symm.trans htoken
  rw [hliteral, hl] at hl'
  exact Option.some.inj hl'

theorem numberText_numberChars : NumberText numberChars where
  ne_nil n := by
    obtain ⟨c, cs, -, hchars, -, -⟩ := undoes_rounded n [] endsNumber_nil
    rw [List.append_nil] at hchars
    rw [hchars]
    exact List.cons_ne_nil c cs
  numeric := isNumeric_numberChars
  inj _ _ := undoes_rounded.inj

variable {num : Number → List Char}

theorem NumberText.newline_not_mem (hn : NumberText num) (n : Number) : '\n' ∉ num n := fun h =>
  absurd (hn.numeric n '\n' h) (by decide)

mutual

/-- **A compact value stands on one line.** -/
theorem newline_not_mem_chars (hn : NumberText num) (j : Json) (depth : Nat) :
    '\n' ∉ j.chars num .compact depth := by
  match j with
  | .null | .bool true | .bool false | .arr [] | .obj [] => simp [chars]
  | .num n =>
    rw [chars]
    exact hn.newline_not_mem n
  | .str s =>
    rw [chars]
    exact newline_not_mem_stringChars s
  | .arr (item :: rest) =>
    have hitem := newline_not_mem_chars hn item (depth + 1)
    have hrest := newline_not_mem_moreItems hn rest (depth + 1)
    simp [chars, gap_compact, hitem, hrest]
  | .obj ((key, value) :: rest) =>
    have hkey := newline_not_mem_stringChars key
    have hvalue := newline_not_mem_chars hn value (depth + 1)
    have hrest := newline_not_mem_moreFields hn rest (depth + 1)
    simp [chars, gap_compact, afterColon_compact, hkey, hvalue, hrest]

theorem newline_not_mem_moreItems (hn : NumberText num) (items : List Json) (depth : Nat) :
    '\n' ∉ moreItems num .compact depth items := by
  match items with
  | [] => simp [moreItems]
  | item :: rest =>
    have hitem := newline_not_mem_chars hn item depth
    have hrest := newline_not_mem_moreItems hn rest depth
    simp [moreItems, gap_compact, hitem, hrest]

theorem newline_not_mem_moreFields (hn : NumberText num) (fields : List (String × Json))
    (depth : Nat) :
    '\n' ∉ moreFields num .compact depth fields := by
  match fields with
  | [] => simp [moreFields]
  | (key, value) :: rest =>
    have hkey := newline_not_mem_stringChars key
    have hvalue := newline_not_mem_chars hn value depth
    have hrest := newline_not_mem_moreFields hn rest depth
    simp [moreFields, gap_compact, afterColon_compact, hkey, hvalue, hrest]

end

/-! ## What begins -/

/-- What kind of value it is, as the character that begins such values. For numbers there is none
that all of them have. -/
def lead : Json → Option Char
  | .null => some 'n'
  | .bool _ => some 't'
  | .num _ => none
  | .str _ => some '"'
  | .arr _ => some '['
  | .obj _ => some '\x7b'

/-- What a first character says about the kind. -/
def leadOf (c : Char) : Option Char :=
  if isNumeric c then none else if c = 'f' then some 't' else some c

/-- **The first character says what kind of value begins.** -/
theorem exists_lead (hn : NumberText num) (j : Json) (depth : Nat) :
    ∃ c cs, j.chars num .compact depth = c :: cs ∧ leadOf c = j.lead := by
  match j with
  | .null | .bool true | .bool false | .arr [] | .obj [] =>
    rw [chars]
    exact ⟨_, _, rfl, rfl⟩
  | .num n =>
    obtain ⟨c, cs, hc⟩ := List.exists_cons_of_ne_nil (hn.ne_nil n)
    have hnumeric : isNumeric c = true := hn.numeric n c (hc ▸ List.mem_cons_self)
    exact ⟨c, cs, hc, if_pos hnumeric⟩
  | .str s => exact ⟨'"', _, rfl, rfl⟩
  | .arr (item :: rest) =>
    rw [chars]
    exact ⟨'[', _, rfl, rfl⟩
  | .obj ((key, value) :: rest) =>
    rw [chars]
    exact ⟨'\x7b', _, rfl, rfl⟩

variable {i j : Json} {rest rest' : List Char} {depth depth' : Nat}

theorem lead_eq_of_append_eq (hn : NumberText num)
    (h : i.chars num .compact depth ++ rest = j.chars num .compact depth' ++ rest') :
    i.lead = j.lead := by
  obtain ⟨c, cs, hc, hlead⟩ := exists_lead hn i depth
  obtain ⟨c', cs', hc', hlead'⟩ := exists_lead hn j depth'
  rw [hc, hc'] at h
  rw [← hlead, ← hlead', (List.cons.inj h).1]

/-- No value begins with the bracket that closes an array. -/
theorem chars_append_ne_close (hn : NumberText num) (j : Json) (depth : Nat) (rest cs : List Char) :
    j.chars num .compact depth ++ rest ≠ ']' :: cs := by
  intro h
  obtain ⟨c, tail, hc, hlead⟩ := exists_lead hn j depth
  rw [hc] at h
  rw [(List.cons.inj h).1] at hlead
  have hclose : leadOf ']' = some ']' := rfl
  rw [hclose] at hlead
  cases j <;> exact absurd hlead (by simp [lead])

/-! ## Where a value ends -/

/-- **A written string is known, and so is where it ends.** -/
theorem stringChars_append_inj {s t : String}
    (h : stringChars s ++ rest = stringChars t ++ rest') : s = t ∧ rest = rest' := by
  have hread (s : String) (rest : List Char) :
      stringChars s ++ rest = '"' :: (s.toList.flatMap escape ++ '"' :: rest) := by
    simp [stringChars]
  rw [hread, hread] at h
  have htoken := nextToken_string s rest
  rw [(List.cons.inj h).2, nextToken_string] at htoken
  obtain ⟨hcontent, hrest⟩ := Prod.mk.inj htoken
  exact ⟨(Except.ok.inj (Token.string.inj hcontent)).symm, hrest.symm⟩

theorem stops_moreItems (items : List Json) (depth : Nat) (rest : List Char) :
    Stops isNumeric (moreItems num .compact depth items ++ ']' :: rest) := by
  cases items with
  | nil => exact stops_cons (by decide) rest
  | cons item items => exact stops_cons (c := ',') (by decide) _

theorem stops_moreFields (fields : List (String × Json)) (depth : Nat) (rest : List Char) :
    Stops isNumeric (moreFields num .compact depth fields ++ '\x7d' :: rest) := by
  cases fields with
  | nil => exact stops_cons (by decide) rest
  | cons field fields => exact stops_cons (c := ',') (by decide) _

theorem chars_arr_append (item : Json) (items : List Json) (depth : Nat) (rest : List Char) :
    (arr (item :: items)).chars num .compact depth ++ rest =
      '[' :: (item.chars num .compact (depth + 1) ++
        (moreItems num .compact (depth + 1) items ++ ']' :: rest)) := by
  simp [chars, gap_compact]

theorem chars_obj_append (key : String) (value : Json) (fields : List (String × Json))
    (depth : Nat) (rest : List Char) :
    (obj ((key, value) :: fields)).chars num .compact depth ++ rest =
      '\x7b' :: (stringChars key ++ ':' :: (value.chars num .compact (depth + 1) ++
        (moreFields num .compact (depth + 1) fields ++ '\x7d' :: rest))) := by
  simp [chars, gap_compact, afterColon_compact]

theorem moreItems_cons_append (item : Json) (items : List Json) (depth : Nat) (rest : List Char) :
    moreItems num .compact depth (item :: items) ++ rest =
      ',' :: (item.chars num .compact depth ++ (moreItems num .compact depth items ++ rest)) := by
  simp [moreItems, gap_compact]

theorem moreFields_cons_append (key : String) (value : Json) (fields : List (String × Json))
    (depth : Nat) (rest : List Char) :
    moreFields num .compact depth ((key, value) :: fields) ++ rest =
      ',' :: (stringChars key ++ ':' :: (value.chars num .compact depth ++
        (moreFields num .compact depth fields ++ rest))) := by
  simp [moreFields, gap_compact, afterColon_compact]

mutual

/-- **A written value is known, and so is where it ends**, if what follows does not continue a
number. -/
theorem chars_append_inj (hn : NumberText num) (i : Json) {j : Json} {depth depth' : Nat}
    {rest rest' : List Char} (hrest : Stops isNumeric rest) (hrest' : Stops isNumeric rest')
    (h : i.chars num .compact depth ++ rest = j.chars num .compact depth' ++ rest') :
    i = j ∧ rest = rest' := by
  have hlead := lead_eq_of_append_eq hn h
  match i with
  | .null =>
    cases j with
    | null => exact ⟨rfl, List.append_cancel_left h⟩
    | _ => exact absurd hlead (by simp [lead])
  | .bool a =>
    cases j with
    | bool b =>
      cases a <;> cases b
      · exact ⟨rfl, List.append_cancel_left h⟩
      · exact absurd (List.cons.inj h).1 (by decide)
      · exact absurd (List.cons.inj h).1 (by decide)
      · exact ⟨rfl, List.append_cancel_left h⟩
    | _ => exact absurd hlead (by simp [lead])
  | .num m =>
    cases j with
    | num n =>
      obtain ⟨hnum, hrests⟩ := run_append_inj (hn.numeric m) (hn.numeric n) hrest hrest' h
      rw [hn.inj m n hnum]
      exact ⟨rfl, hrests⟩
    | _ => exact absurd hlead (by simp [lead])
  | .str s =>
    cases j with
    | str t =>
      obtain ⟨rfl, hrests⟩ := stringChars_append_inj h
      exact ⟨rfl, hrests⟩
    | _ => exact absurd hlead (by simp [lead])
  | .arr items =>
    cases j with
    | arr others =>
      match items, others with
      | [], [] => exact ⟨rfl, List.append_cancel_left h⟩
      | [], other :: others =>
        rw [chars_arr_append] at h
        exact absurd (List.cons.inj h).2.symm (chars_append_ne_close hn other _ _ _)
      | item :: items, [] =>
        rw [chars_arr_append] at h
        exact absurd (List.cons.inj h).2 (chars_append_ne_close hn item _ _ _)
      | item :: items, other :: others =>
        rw [chars_arr_append, chars_arr_append] at h
        obtain ⟨rfl, hmore⟩ := chars_append_inj hn item (stops_moreItems items _ rest)
          (stops_moreItems others _ rest') (List.cons.inj h).2
        obtain ⟨rfl, hrests⟩ := moreItems_append_inj hn items hmore
        exact ⟨rfl, hrests⟩
    | _ => exact absurd hlead (by simp [lead])
  | .obj fields =>
    cases j with
    | obj others =>
      match fields, others with
      | [], [] => exact ⟨rfl, List.append_cancel_left h⟩
      | [], (other, otherValue) :: others =>
        rw [chars_obj_append] at h
        exact absurd (List.cons.inj (List.cons.inj h).2).1 (by decide)
      | (key, value) :: fields, [] =>
        rw [chars_obj_append] at h
        exact absurd (List.cons.inj (List.cons.inj h).2).1 (by decide)
      | (key, value) :: fields, (other, otherValue) :: others =>
        rw [chars_obj_append, chars_obj_append] at h
        obtain ⟨rfl, hvalue⟩ := stringChars_append_inj (List.cons.inj h).2
        obtain ⟨rfl, hmore⟩ := chars_append_inj hn value (stops_moreFields fields _ rest)
          (stops_moreFields others _ rest') (List.cons.inj hvalue).2
        obtain ⟨rfl, hrests⟩ := moreFields_append_inj hn fields hmore
        exact ⟨rfl, hrests⟩
    | _ => exact absurd hlead (by simp [lead])

theorem moreItems_append_inj (hn : NumberText num) (items : List Json) {others : List Json}
    {depth depth' : Nat} {rest rest' : List Char}
    (h : moreItems num .compact depth items ++ ']' :: rest =
      moreItems num .compact depth' others ++ ']' :: rest') : items = others ∧ rest = rest' := by
  match items, others with
  | [], [] => exact ⟨rfl, (List.cons.inj h).2⟩
  | [], other :: others =>
    rw [moreItems_cons_append] at h
    exact absurd (List.cons.inj h).1 (by decide)
  | item :: items, [] =>
    rw [moreItems_cons_append] at h
    exact absurd (List.cons.inj h).1 (by decide)
  | item :: items, other :: others =>
    rw [moreItems_cons_append, moreItems_cons_append] at h
    obtain ⟨rfl, hmore⟩ := chars_append_inj hn item (stops_moreItems items _ rest)
      (stops_moreItems others _ rest') (List.cons.inj h).2
    obtain ⟨rfl, hrests⟩ := moreItems_append_inj hn items hmore
    exact ⟨rfl, hrests⟩

theorem moreFields_append_inj (hn : NumberText num) (fields : List (String × Json))
    {others : List (String × Json)} {depth depth' : Nat} {rest rest' : List Char}
    (h : moreFields num .compact depth fields ++ '\x7d' :: rest =
      moreFields num .compact depth' others ++ '\x7d' :: rest') :
    fields = others ∧ rest = rest' := by
  match fields, others with
  | [], [] => exact ⟨rfl, (List.cons.inj h).2⟩
  | [], (other, otherValue) :: others =>
    rw [moreFields_cons_append] at h
    exact absurd (List.cons.inj h).1 (by decide)
  | (key, value) :: fields, [] =>
    rw [moreFields_cons_append] at h
    exact absurd (List.cons.inj h).1 (by decide)
  | (key, value) :: fields, (other, otherValue) :: others =>
    rw [moreFields_cons_append, moreFields_cons_append] at h
    obtain ⟨rfl, hvalue⟩ := stringChars_append_inj (List.cons.inj h).2
    obtain ⟨rfl, hmore⟩ := chars_append_inj hn value (stops_moreFields fields _ rest)
      (stops_moreFields others _ rest') (List.cons.inj hvalue).2
    obtain ⟨rfl, hrests⟩ := moreFields_append_inj hn fields hmore
    exact ⟨rfl, hrests⟩

end

/-! ## Writers -/

/-- **What a line asks of a writer of values**: that a value has no line break, and that it is known
wherever it ends, unless a number is continued. -/
structure Inline (write : Json → String) : Prop where
  unbroken : ∀ j, '\n' ∉ (write j).toList
  append_inj : ∀ {i j : Json} {rest rest' : List Char}, Stops isNumeric rest →
    Stops isNumeric rest' → (write i).toList ++ rest = (write j).toList ++ rest' →
    i = j ∧ rest = rest'

/-- Compact JSON can stand in a line, however numbers are spelled. -/
theorem inline_textWith (hn : NumberText num) : Inline (textWith num) := by
  have htext (j : Json) : (j.textWith num).toList = j.chars num .compact 0 := String.toList_ofList
  constructor
  · intro j
    rw [htext]
    exact newline_not_mem_chars hn j 0
  · intro i j rest rest' hrest hrest' h
    rw [htext, htext] at h
    exact chars_append_inj hn i hrest hrest' h

theorem inline_text : Inline text := inline_textWith numberText_numberChars

end Json

end ViewTree
