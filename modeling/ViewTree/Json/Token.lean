import ViewTree.Json.Fault
import ViewTree.Json.Literal
import ViewTree.Text.Escape

/-!
# Tokens of JSON texts

The first stage of reading: characters become tokens. A text that is no JSON still has tokens, up
to a last one that is **broken off**; whether that one matters is decided by what reads the tokens,
because a fault further in front may come first.

Two readers share the tokens. One wants the values. The other only skips a value nobody asked for,
and it is more lenient in three ways: it does not join surrogates, it does not check that a number
is in range, and where a number breaks off it does not ask whether the text ended there. Hence a
string carries its content or the fault of reading it, a number stays a literal, and a broken token
carries two faults.

Reading a fault off a position: where the text ends, it is `unfinished`; where another character
stands than one that could continue, it is `malformed`.
-/

set_option autoImplicit false

namespace ViewTree.Json

/-! ## Number literals -/

/-- A run of digits and what follows it. There must be one digit at least. -/
def digits (cs : List Char) : Except Fault (List Char × List Char) :=
  if cs.takeWhile Char.isDigit = [] then .error (.at cs)
  else .ok (cs.takeWhile Char.isDigit, cs.dropWhile Char.isDigit)

/-- The digits in front of the point. A zero stands alone there. -/
def wholePart : List Char → Except Fault (List Char × List Char)
  | '0' :: rest => if (rest.takeWhile Char.isDigit).isEmpty then .ok (['0'], rest)
    else .error .malformed
  | cs => digits cs

/-- The digits behind the point, if there is one. -/
def fractionPart : List Char → Except Fault (Option (List Char) × List Char)
  | '.' :: rest => (digits rest).map fun (ds, rest) => (some ds, rest)
  | cs => .ok (none, cs)

/-- A sign and what follows it. -/
def signPart : List Char → Bool × List Char
  | '-' :: rest => (true, rest)
  | '+' :: rest => (false, rest)
  | cs => (false, cs)

/-- The exponent, if there is one. -/
def exponentPart : List Char → Except Fault (Option Int × List Char)
  | c :: rest =>
    if c = 'e' ∨ c = 'E' then
      let (negative, rest) := signPart rest
      (digits rest).map fun (ds, rest) =>
        let n : Int := Decimal.valueOf ds
        (some (if negative then -n else n), rest)
    else .ok (none, c :: rest)
  | [] => .ok (none, [])

/-- A number behind its sign. -/
def number (negative : Bool) (cs : List Char) : Except Fault (Literal × List Char) := do
  let (whole, rest) ← wholePart cs
  let (fraction, rest) ← fractionPart rest
  let (exponent, rest) ← exponentPart rest
  pure (⟨negative, whole, fraction, exponent⟩, rest)

/-! ## Strings -/

/-- A piece of a string: a character, or a code unit that was written as `\u` and four digits. -/
inductive Piece where
  | char (c : Char)
  | codeUnit (n : Nat)
deriving DecidableEq

/-- The character that a one-letter escape stands for. -/
def unescape : Char → Option Char
  | '/' => some '/'
  | c => Text.unescape c

/-- The value of four hexadecimal digits. -/
def hexUnit (a b c d : Char) : Option Nat := do
  let a ← Text.hexValue a
  let b ← Text.hexValue b
  let c ← Text.hexValue c
  let d ← Text.hexValue d
  pure (((a * 16 + b) * 16 + c) * 16 + d)

/-- The fault of an escape with fewer than four characters behind it: four bytes are taken at once,
so the text counts as ended only if fewer are left. -/
def shortEscape (cs : List Char) : Fault :=
  if (String.ofList cs).utf8ByteSize < 4 then .unfinished else .malformed

/-- The pieces of a string up to its closing quote, and what follows that quote or the fault that
keeps it from being reached. -/
def pieces : List Char → List Piece × Except Fault (List Char)
  | [] => ([], .error .unfinished)
  | '"' :: rest => ([], .ok rest)
  | '\\' :: 'u' :: a :: b :: c :: d :: rest =>
    match hexUnit a b c d with
    | some n => let (ps, ending) := pieces rest; (.codeUnit n :: ps, ending)
    | none => ([], .error .malformed)
  | '\\' :: 'u' :: short => ([], .error (shortEscape short))
  | '\\' :: c :: rest =>
    match unescape c with
    | some c => let (ps, ending) := pieces rest; (.char c :: ps, ending)
    | none => ([], .error .malformed)
  | ['\\'] => ([], .error .unfinished)
  | c :: rest =>
    if c.toNat < 0x20 then ([], .error .malformed)
    else let (ps, ending) := pieces rest; (.char c :: ps, ending)

/-- Whether a code unit is the first half of a pair. -/
def isLeading (n : Nat) : Bool := 0xD800 ≤ n && n ≤ 0xDBFF

/-- Whether a code unit is the second half of a pair. -/
def isTrailing (n : Nat) : Bool := 0xDC00 ≤ n && n ≤ 0xDFFF

/-- The character of a leading and a trailing surrogate. -/
def joinPair (leading trailing : Nat) : Char :=
  Char.ofNat (0x10000 + (leading - 0xD800) * 0x400 + (trailing - 0xDC00))

/-- The characters of pieces. A surrogate must be a leading one with a trailing one right behind
it; `last` is the fault where the pieces end behind a leading one. -/
def join (last : Fault) : List Piece → Except Fault (List Char)
  | [] => .ok []
  | .char c :: rest => (join last rest).map (c :: ·)
  | .codeUnit n :: rest =>
    if isTrailing n then .error .malformed
    else if isLeading n then
      match rest with
      | [] => .error last
      | .codeUnit m :: rest =>
        if isTrailing m then (join last rest).map (joinPair n m :: ·) else .error .malformed
      | .char _ :: _ => .error .malformed
    else (join last rest).map (Char.ofNat n :: ·)

/-! ## Tokens -/

/-- A token of a JSON text. -/
inductive Token where
  | openArray
  | closeArray
  | openObject
  | closeObject
  | comma
  | colon
  | null
  | bool (value : Bool)
  | number (literal : Literal)
  /-- A closed string. Its content may still be unreadable. -/
  | string (content : Except Fault String)
  /-- The text breaks off inside a token: the fault for one who reads it and for one who skips it,
  and whether the token is a string. -/
  | broken (read skipped : Fault) (isString : Bool)

/-- A string behind its opening quote. -/
def stringToken (cs : List Char) : Token × List Char :=
  match pieces cs with
  | (ps, .ok rest) => (.string ((join .malformed ps).map String.ofList), rest)
  | (ps, .error fault) =>
    match join fault ps with
    | .ok _ => (.broken fault fault true, [])
    | .error earlier => (.broken earlier fault true, [])

/-- A number behind its sign. -/
def numberToken (negative : Bool) (cs : List Char) : Token × List Char :=
  match number negative cs with
  | .ok (literal, rest) => (.number literal, rest)
  | .error fault => (.broken fault .malformed false, [])

/-- What follows an expected word. -/
def afterWord : List Char → List Char → Except Fault (List Char)
  | [], cs => .ok cs
  | _ :: _, [] => .error .unfinished
  | w :: ws, c :: cs => if c = w then afterWord ws cs else .error .malformed

/-- A word behind its first letter. -/
def wordToken (token : Token) (word cs : List Char) : Token × List Char :=
  match afterWord word cs with
  | .ok rest => (token, rest)
  | .error fault => (.broken fault fault false, [])

/-- The token that starts with a character, and what follows it. -/
def nextToken (c : Char) (rest : List Char) : Token × List Char :=
  match c with
  | '[' => (.openArray, rest)
  | ']' => (.closeArray, rest)
  | '\x7b' => (.openObject, rest)
  | '\x7d' => (.closeObject, rest)
  | ',' => (.comma, rest)
  | ':' => (.colon, rest)
  | '"' => stringToken rest
  | 'n' => wordToken .null ['u', 'l', 'l'] rest
  | 't' => wordToken (.bool true) ['r', 'u', 'e'] rest
  | 'f' => wordToken (.bool false) ['a', 'l', 's', 'e'] rest
  | '-' => numberToken true rest
  | c =>
    if c.isDigit then numberToken false (c :: rest)
    else (.broken .malformed .malformed false, [])

/-- The blanks that may stand between tokens. -/
def isBlank (c : Char) : Bool := c = ' ' || c = '\t' || c = '\n' || c = '\r'

/-! ## The scan ends

Every token takes a character at least, so what is left gets shorter. -/

theorem length_dropWhile_le (p : Char → Bool) (cs : List Char) :
    (cs.dropWhile p).length ≤ cs.length :=
  (List.dropWhile_suffix p).length_le

theorem length_digits {cs ds rest : List Char} (h : digits cs = .ok (ds, rest)) :
    rest.length < cs.length := by
  unfold digits at h
  split at h
  · cases h
  · rename_i hne
    cases h
    cases cs with
    | nil => exact absurd rfl hne
    | cons c cs =>
      by_cases hc : c.isDigit = true
      · have := length_dropWhile_le Char.isDigit cs
        simp [List.dropWhile, hc]
        omega
      · simp [List.takeWhile, hc] at hne

theorem length_wholePart {cs ds rest : List Char} (h : wholePart cs = .ok (ds, rest)) :
    rest.length < cs.length := by
  unfold wholePart at h
  split at h
  · split at h
    · cases h; simp
    · cases h
  · exact length_digits h

theorem length_fractionPart {cs rest : List Char} {ds : Option (List Char)}
    (h : fractionPart cs = .ok (ds, rest)) : rest.length ≤ cs.length := by
  unfold fractionPart at h
  split at h
  · rename_i behind
    cases hd : digits behind with
    | error fault => simp [hd, Except.map] at h
    | ok result =>
      obtain ⟨found, left⟩ := result
      simp only [hd, Except.map, Except.ok.injEq, Prod.mk.injEq] at h
      have := length_digits hd
      simp only [List.length_cons, ← h.2]
      omega
  · cases h; exact Nat.le_refl _

theorem length_signPart (cs : List Char) : (signPart cs).2.length ≤ cs.length := by
  unfold signPart
  split <;> simp

theorem length_exponentPart {cs rest : List Char} {e : Option Int}
    (h : exponentPart cs = .ok (e, rest)) : rest.length ≤ cs.length := by
  unfold exponentPart at h
  split at h
  · rename_i c behind
    split at h
    · have hsign := length_signPart behind
      cases hd : digits (signPart behind).2 with
      | error fault => simp [hd, Except.map] at h
      | ok result =>
        obtain ⟨found, left⟩ := result
        simp only [hd, Except.map, Except.ok.injEq, Prod.mk.injEq] at h
        have := length_digits hd
        simp only [List.length_cons, ← h.2]
        omega
    · cases h; exact Nat.le_refl _
  · cases h; exact Nat.le_refl _

theorem length_number {negative : Bool} {cs rest : List Char} {literal : Literal}
    (h : number negative cs = .ok (literal, rest)) : rest.length < cs.length := by
  unfold number at h
  cases hw : wholePart cs with
  | error fault => simp [hw, bind, Except.bind] at h
  | ok whole =>
    obtain ⟨ws, r₁⟩ := whole
    simp only [hw, bind, Except.bind] at h
    cases hf : fractionPart r₁ with
    | error fault => simp [hf] at h
    | ok fraction =>
      obtain ⟨fs, r₂⟩ := fraction
      simp only [hf] at h
      cases he : exponentPart r₂ with
      | error fault => simp [he] at h
      | ok exponent =>
        obtain ⟨e, r₃⟩ := exponent
        simp only [he] at h
        have h₁ := length_wholePart hw
        have h₂ := length_fractionPart hf
        have h₃ := length_exponentPart he
        simp only [pure, Except.pure, Except.ok.injEq, Prod.mk.injEq] at h
        rw [← h.2]
        omega

theorem length_pieces {cs rest : List Char} (h : (pieces cs).2 = .ok rest) :
    rest.length ≤ cs.length := by
  fun_induction pieces cs with
  | case1 => cases h
  | case2 => cases h; simp
  | case3 a b c d behind n _ ps ending hps ih =>
    have := ih (by simpa [hps] using h)
    simp only [List.length_cons]; omega
  | case4 => cases h
  | case5 => cases h
  | case6 _ _ _ _ _ _ ps ending hps ih =>
    have := ih (by simpa [hps] using h)
    simp only [List.length_cons]; omega
  | case7 => cases h
  | case8 => cases h
  | case9 => cases h
  | case10 _ _ _ _ _ _ _ _ ps ending hps ih =>
    have := ih (by simpa [hps] using h)
    simp only [List.length_cons]; omega

theorem length_stringToken (cs : List Char) : (stringToken cs).2.length ≤ cs.length := by
  unfold stringToken
  split
  · rename_i h
    exact length_pieces (by rw [h])
  · split <;> exact Nat.zero_le _

theorem length_numberToken (negative : Bool) (cs : List Char) :
    (numberToken negative cs).2.length ≤ cs.length - 1 := by
  unfold numberToken
  split
  · rename_i h
    have := length_number h
    simp only
    omega
  · exact Nat.zero_le _

theorem length_afterWord {word cs rest : List Char} (h : afterWord word cs = .ok rest) :
    rest.length ≤ cs.length := by
  fun_induction afterWord word cs with
  | case1 => cases h; exact Nat.le_refl _
  | case2 => cases h
  | case3 w ws cs ih => have := ih h; simp only [List.length_cons]; omega
  | case4 => cases h

theorem length_wordToken (token : Token) (word cs : List Char) :
    (wordToken token word cs).2.length ≤ cs.length := by
  unfold wordToken
  split
  · rename_i h; exact length_afterWord h
  · exact Nat.zero_le _

theorem length_nextToken (c : Char) (rest : List Char) :
    (nextToken c rest).2.length ≤ rest.length := by
  unfold nextToken
  split
  case h_7 => exact length_stringToken rest
  case h_8 => exact length_wordToken _ _ rest
  case h_9 => exact length_wordToken _ _ rest
  case h_10 => exact length_wordToken _ _ rest
  case h_11 => exact Nat.le_trans (length_numberToken true rest) (Nat.sub_le _ _)
  case h_12 =>
    split
    · exact length_numberToken false (_ :: rest)
    · exact Nat.zero_le _
  all_goals exact Nat.le_refl _

/-- The tokens of a text. Behind a broken one there are none. -/
def tokens (cs : List Char) : List Token :=
  match _h : cs.dropWhile isBlank with
  | [] => []
  | c :: rest => (nextToken c rest).1 :: tokens (nextToken c rest).2
termination_by cs.length
decreasing_by
  have h₁ := length_dropWhile_le isBlank cs
  have h₂ := length_nextToken c rest
  rw [_h] at h₁
  simp only [List.length_cons] at h₁
  omega

end ViewTree.Json
