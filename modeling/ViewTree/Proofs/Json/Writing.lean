import ViewTree.Json.Tree
import ViewTree.Proofs.Json.Numbers

/-!
# What is written is scanned

The text of a value, compact or indented, is scanned into the tree of the value and nothing more
(`ofChars_chars`). The statement that is proved by induction is about the machine: at a place where
a value must come, the characters of a value take it to the place behind that value, with whatever
containers are open around it and whatever follows in the text. So it can be used for the elements
of a container as it is, and the two lists of elements, in arrays and in objects, are one induction
each.

Two things are asked of what surrounds a value. The blanks between its elements must be blanks; and
what follows must not continue a number, for a number does not end by itself. Commas and closing
brackets do that, with or without blanks in front of them.

Of numbers only one thing is asked: that the conversion of the reader undoes the spelling of the
writer (`Undoes`). Rounding does that for the shortest digits. Nothing else here looks at a digit.
-/

set_option autoImplicit false

namespace ViewTree.Json

/-! ## Strings -/

/-- A character is written as a letter behind a backslash, by its number, or as it is. -/
theorem escape_cases (c : Char) :
    (∃ letter, escape c = ['\\', letter] ∧ letter ≠ 'u' ∧ unescape letter = some c) ∨
    (escape c = ['\\', 'u', '0', '0', Nat.digitChar (c.toNat / 16),
      Nat.digitChar (c.toNat % 16)] ∧ c.toNat < 0x20) ∨
    (escape c = [c] ∧ c ≠ '"' ∧ c ≠ '\\' ∧ ¬c.toNat < 0x20) := by
  unfold escape
  by_cases hquote : c = '"'
  · exact .inl ⟨'"', by rw [if_pos hquote], by decide, by rw [hquote]; rfl⟩
  by_cases hslash : c = '\\'
  · exact .inl ⟨'\\', by rw [if_neg hquote, if_pos hslash], by decide, by rw [hslash]; rfl⟩
  rw [if_neg hquote, if_neg hslash]
  by_cases hb : c = '\x08'
  · exact .inl ⟨'b', by rw [if_pos hb], by decide, by rw [hb]; rfl⟩
  rw [if_neg hb]
  by_cases hf : c = '\x0c'
  · exact .inl ⟨'f', by rw [if_pos hf], by decide, by rw [hf]; rfl⟩
  rw [if_neg hf]
  by_cases hn : c = '\n'
  · exact .inl ⟨'n', by rw [if_pos hn], by decide, by rw [hn]; rfl⟩
  rw [if_neg hn]
  by_cases hr : c = '\r'
  · exact .inl ⟨'r', by rw [if_pos hr], by decide, by rw [hr]; rfl⟩
  rw [if_neg hr]
  by_cases ht : c = '\t'
  · exact .inl ⟨'t', by rw [if_pos ht], by decide, by rw [ht]; rfl⟩
  rw [if_neg ht]
  by_cases hcontrol : c.toNat < 0x20
  · exact .inr (.inl ⟨by rw [if_pos hcontrol], hcontrol⟩)
  · exact .inr (.inr ⟨by rw [if_neg hcontrol], hquote, hslash, hcontrol⟩)

theorem pieces_letter {letter c : Char} (hu : letter ≠ 'u') (hc : unescape letter = some c)
    (rest : List Char) :
    pieces ('\\' :: letter :: rest) = (.char c :: (pieces rest).1, (pieces rest).2) := by
  rw [pieces]
  · simp only [hc]
  · exact fun _ _ _ _ _ he _ => hu he
  · exact fun he => hu he

theorem pieces_codeUnit {n : Nat} {a b c d : Char} (h : hexUnit a b c d = some n)
    (rest : List Char) :
    pieces ('\\' :: 'u' :: a :: b :: c :: d :: rest) =
      (.codeUnit n :: (pieces rest).1, (pieces rest).2) := by
  rw [pieces.eq_def]
  simp only [h]

theorem pieces_plain {c : Char} (hquote : c ≠ '"') (hslash : c ≠ '\\') (hcontrol : ¬c.toNat < 0x20)
    (rest : List Char) : pieces (c :: rest) = (.char c :: (pieces rest).1, (pieces rest).2) := by
  rw [pieces.eq_def]
  split <;> simp_all

theorem hexUnit_control : ∀ n < 32,
    hexUnit '0' '0' (Nat.digitChar (n / 16)) (Nat.digitChar (n % 16)) = some n := by decide

theorem not_surrogate_control : ∀ n < 32, isTrailing n = false ∧ isLeading n = false := by decide

/-- A character that is written is read as one piece, which stands for it. -/
theorem pieces_escape (c : Char) : ∃ p : Piece,
    (∀ rest, pieces (escape c ++ rest) = (p :: (pieces rest).1, (pieces rest).2)) ∧
      ∀ last ps, join last (p :: ps) = (join last ps).map (c :: ·) := by
  have hchar (last : Fault) (ps : List Piece) :
      join last (.char c :: ps) = (join last ps).map (c :: ·) := by rw [join]
  rcases escape_cases c with ⟨letter, hc, hu, hletter⟩ | ⟨hc, hcontrol⟩ | ⟨hc, hplain⟩
  · exact ⟨.char c, fun rest => by rw [hc]; exact pieces_letter hu hletter rest, hchar⟩
  · refine ⟨.codeUnit c.toNat, fun rest => ?_, fun last ps => ?_⟩
    · rw [hc]
      exact pieces_codeUnit (hexUnit_control c.toNat hcontrol) rest
    · obtain ⟨htrailing, hleading⟩ := not_surrogate_control c.toNat hcontrol
      rw [join.eq_def]
      simp only [htrailing, hleading, Bool.false_eq_true, if_false, Char.ofNat_toNat]
  · exact ⟨.char c, fun rest => by rw [hc]; exact pieces_plain hplain.1 hplain.2.1 hplain.2.2 rest,
      hchar⟩

/-- The text of a string is read up to its closing quote and stands for the string. -/
theorem pieces_flatMap_escape (cs rest : List Char) : ∃ ps,
    pieces (cs.flatMap escape ++ '"' :: rest) = (ps, .ok rest) ∧
      ∀ last, join last ps = .ok cs := by
  induction cs with
  | nil => exact ⟨[], by rw [List.flatMap_nil, List.nil_append, pieces], fun _ => by rw [join]⟩
  | cons c cs ih =>
    obtain ⟨ps, hps, hjoin⟩ := ih
    obtain ⟨p, hp, hcons⟩ := pieces_escape c
    refine ⟨p :: ps, ?_, fun last => ?_⟩
    · rw [List.flatMap_cons, List.append_assoc, hp, hps]
    · rw [hcons, hjoin]
      rfl

theorem nextToken_string (s : String) (rest : List Char) :
    nextToken '"' (s.toList.flatMap escape ++ '"' :: rest) = (.string (.ok s), rest) := by
  obtain ⟨ps, hps, hjoin⟩ := pieces_flatMap_escape s.toList rest
  have hstring : stringToken (s.toList.flatMap escape ++ '"' :: rest) =
      (.string (.ok (String.ofList s.toList)), rest) := by
    rw [stringToken, hps]
    simp only [hjoin, Except.map]
  rw [String.ofList_toList] at hstring
  exact hstring

/-! ## Marks and numbers -/

theorem nextToken_openArray (rest : List Char) : nextToken '[' rest = (.openArray, rest) := rfl

theorem nextToken_closeArray (rest : List Char) : nextToken ']' rest = (.closeArray, rest) := rfl

theorem nextToken_openObject (rest : List Char) :
    nextToken '\x7b' rest = (.openObject, rest) := rfl

theorem nextToken_closeObject (rest : List Char) :
    nextToken '\x7d' rest = (.closeObject, rest) := rfl

theorem nextToken_comma (rest : List Char) : nextToken ',' rest = (.comma, rest) := rfl

theorem nextToken_colon (rest : List Char) : nextToken ':' rest = (.colon, rest) := rfl

/-- A blank continues no number. -/
theorem continues_of_isBlank {c : Char} (h : isBlank c = true) :
    c.isDigit = false ∧ c ≠ '.' ∧ c ≠ 'e' ∧ c ≠ 'E' := by
  simp only [isBlank, Bool.or_eq_true, decide_eq_true_eq] at h
  rcases h with ((rfl | rfl) | rfl) | rfl <;> decide

theorem nextToken_digit {c : Char} (hc : c.isDigit = true) (rest : List Char) :
    nextToken c rest = numberToken false (c :: rest) := by
  unfold nextToken
  split <;> first
    | exact absurd hc (by decide)
    | rw [if_pos hc]

/-- **A conversion undoes a spelling of numbers.** A written number is one token, as far as what
follows does not continue it, and the token is converted to the number. -/
def Undoes (convert : Conversion) (num : Number → List Char) : Prop :=
  ∀ n rest, EndsNumber rest → ∃ c cs l, num n ++ rest = c :: cs ∧ isBlank c = false ∧
    nextToken c cs = (.number l, rest) ∧ convert l = some n

/-- Rounding undoes the shortest spelling. -/
theorem undoes_rounded : Undoes Literal.rounded? numberChars := by
  intro n rest h
  obtain ⟨negative, cs, hchars, hread⟩ := numberChars_eq n
  obtain ⟨l, hread, hl⟩ := hread rest h
  have htoken : numberToken negative (cs ++ rest) = (.number l, rest) := by
    rw [numberToken, hread]
  cases negative with
  | true => exact ⟨'-', cs ++ rest, l, by rw [hchars]; rfl, by decide, htoken, hl⟩
  | false =>
    obtain ⟨c, tail, hcs, hc⟩ := exists_digit_of_number hread
    refine ⟨c, tail, l, by rw [hchars]; exact hcs, ?_, ?_, hl⟩
    · refine Bool.eq_false_iff.mpr fun hblank => ?_
      rw [(continues_of_isBlank hblank).1] at hc
      exact absurd hc (by simp)
    · rw [nextToken_digit hc, ← hcs, htoken]

/-! ## Runs of the machine -/

theorem tokens_eq_nil {cs : List Char} (h : cs.dropWhile isBlank = []) : tokens cs = [] := by
  rw [tokens]
  split
  · rfl
  · rename_i hcons
    rw [h] at hcons
    exact absurd hcons (by simp)

theorem tokens_eq_cons {c : Char} {cs rest : List Char} (h : cs.dropWhile isBlank = c :: rest) :
    tokens cs = (nextToken c rest).1 :: tokens (nextToken c rest).2 := by
  rw [tokens]
  split
  · rename_i hnil
    rw [h] at hnil
    exact absurd hnil (by simp)
  · rename_i hcons
    rw [h] at hcons
    obtain ⟨rfl, rfl⟩ := List.cons.inj hcons
    rfl

variable {convert : Conversion}

namespace Tree

/-- The state of the machine behind the characters of a text. -/
def run (convert : Conversion) (state : State) (cs : List Char) : State :=
  (tokens cs).foldl (step convert) state

theorem run_nil (state : State) : run convert state [] = state := by
  rw [run, tokens_eq_nil rfl]
  rfl

theorem run_token {c : Char} {rest behind : List Char} {token : Token} (state : State)
    (hc : isBlank c = false) (h : nextToken c rest = (token, behind)) :
    run convert state (c :: rest) = run convert (step convert state token) behind := by
  have hdrop : (c :: rest).dropWhile isBlank = c :: rest := by
    rw [List.dropWhile_cons, if_neg (by simp [hc])]
  rw [run, tokens_eq_cons hdrop, h]
  rfl

/-- Blanks do not matter. -/
theorem run_blank {bs : List Char} (hb : ∀ c ∈ bs, isBlank c = true) (state : State)
    (rest : List Char) : run convert state (bs ++ rest) = run convert state rest := by
  have hdrop : (bs ++ rest).dropWhile isBlank = rest.dropWhile isBlank :=
    List.dropWhile_append_of_pos hb
  have htokens : tokens (bs ++ rest) = tokens rest := by
    cases h : rest.dropWhile isBlank with
    | nil => rw [tokens_eq_nil h, tokens_eq_nil (hdrop.trans h)]
    | cons c cs => rw [tokens_eq_cons h, tokens_eq_cons (hdrop.trans h)]
  rw [run, run, htokens]

/-! ## The tree of a value -/

mutual

/-- The tree of a text that spells a value. -/
def ofJson : Json → Tree
  | .null => .null
  | .bool b => .bool b
  | .num n => .number (some n)
  | .str s => .string (.ok s)
  | .arr items => .arr (ofItems items) none
  | .obj fields => .obj (ofFields fields) none

/-- The trees of elements. -/
def ofItems : List Json → List Tree
  | [] => []
  | item :: rest => ofJson item :: ofItems rest

/-- The trees of fields. -/
def ofFields : List (String × Json) → List (Except Fault String × Tree)
  | [] => []
  | (key, value) :: rest => (.ok key, ofJson value) :: ofFields rest

end

end Tree

/-! ## Surroundings -/

/-- Nothing but blanks is put between the elements. -/
structure Blanks.Blank (blanks : Blanks) : Prop where
  gap : ∀ depth, ∀ c ∈ blanks.gap depth, isBlank c = true
  afterColon : ∀ c ∈ blanks.afterColon, isBlank c = true

theorem Blanks.compact_blank : Blanks.compact.Blank :=
  ⟨fun _ _ hc => absurd hc (by simp [compact]), fun _ hc => absurd hc (by simp [compact])⟩

theorem Blanks.indented_blank : Blanks.indented.Blank := by
  refine ⟨fun depth c hc => ?_, fun c hc => ?_⟩
  · rcases List.mem_cons.mp hc with rfl | hc
    · decide
    · rw [List.eq_of_mem_replicate hc]
      decide
  · rw [List.mem_singleton.mp hc]
    decide

/-- A comma or a closing bracket ends a number. -/
theorem endsNumber_cons {c : Char} (hc : c = ',' ∨ c = ']' ∨ c = '\x7d') (rest : List Char) :
    EndsNumber (c :: rest) := by
  intro d hd
  obtain rfl := Option.some.inj hd
  rcases hc with rfl | rfl | rfl <;> decide

/-- What ends a number does so with blanks in front of it. -/
theorem EndsNumber.blank {bs rest : List Char} (hb : ∀ c ∈ bs, isBlank c = true)
    (h : EndsNumber rest) : EndsNumber (bs ++ rest) := by
  cases bs with
  | nil => exact h
  | cons b bs =>
    intro d hd
    obtain rfl := Option.some.inj hd
    exact continues_of_isBlank (hb b List.mem_cons_self)

variable {num : Number → List Char} {blanks : Blanks}

theorem endsNumber_moreItems (hb : blanks.Blank) (depth outer : Nat) (items : List Json)
    (rest : List Char) :
    EndsNumber (moreItems num blanks depth items ++ (blanks.gap outer ++ ']' :: rest)) := by
  cases items with
  | nil =>
    rw [moreItems, List.nil_append]
    exact (endsNumber_cons (.inr (.inl rfl)) rest).blank (hb.gap outer)
  | cons item items =>
    rw [moreItems]
    exact endsNumber_cons (.inl rfl) _

theorem endsNumber_moreFields (hb : blanks.Blank) (depth outer : Nat)
    (fields : List (String × Json)) (rest : List Char) :
    EndsNumber (moreFields num blanks depth fields ++ (blanks.gap outer ++ '\x7d' :: rest)) := by
  cases fields with
  | nil =>
    rw [moreFields, List.nil_append]
    exact (endsNumber_cons (.inr (.inr rfl)) rest).blank (hb.gap outer)
  | cons field fields =>
    rw [moreFields]
    exact endsNumber_cons (.inl rfl) _

/-! ## Values -/

namespace Tree

/-- Where a key must come, a written key with its colon is read. -/
theorem run_key (hb : blanks.Blank) (key : String) (rest : List Char) (mayClose : Bool)
    (done : List (Except Fault String × Tree)) (around : List Frame) :
    run convert (.key mayClose done around)
        (stringChars key ++ (':' :: (blanks.afterColon ++ rest))) =
      run convert (.value false (.fields done (.ok key) :: around)) rest := by
  have hkey : stringChars key ++ (':' :: (blanks.afterColon ++ rest)) =
      '"' :: (key.toList.flatMap escape ++ '"' :: ':' :: (blanks.afterColon ++ rest)) := by
    simp [stringChars]
  rw [hkey, run_token _ (by decide) (nextToken_string key _),
    run_token _ (by decide) (nextToken_colon _), run_blank hb.afterColon]
  rfl

mutual

/-- **Where a value must come, a written value is read**, whatever is around it. -/
theorem run_chars (hn : Undoes convert num) (hb : blanks.Blank) (j : Json) (depth : Nat)
    (mayClose : Bool) (around : List Frame) (rest : List Char) (h : EndsNumber rest) :
    run convert (.value mayClose around) (j.chars num blanks depth ++ rest) =
      run convert (.separator (ofJson j) around) rest := by
  match j with
  | .null => exact run_token _ (by decide) rfl
  | .bool true => exact run_token _ (by decide) rfl
  | .bool false => exact run_token _ (by decide) rfl
  | .num n =>
    obtain ⟨c, cs, l, hchars, hc, htoken, hl⟩ := hn n rest h
    rw [chars, hchars, run_token _ hc htoken, step, takeValue, hl]
    rfl
  | .str s =>
    have hchars : stringChars s ++ rest = '"' :: (s.toList.flatMap escape ++ '"' :: rest) := by
      simp [stringChars]
    rw [chars, hchars, run_token _ (by decide) (nextToken_string s rest)]
    rfl
  | .arr [] =>
    rw [chars, List.cons_append, List.cons_append, run_token _ (by decide) (nextToken_openArray _),
      run_token _ (by decide) (nextToken_closeArray _)]
    rfl
  | .arr (item :: items) =>
    -- The array is open around its elements, and what follows one is the rest of the array.
    have hitem := run_chars hn hb item (depth + 1) true (.items [] :: around)
      (moreItems num blanks (depth + 1) items ++ (blanks.gap depth ++ ']' :: rest))
      (endsNumber_moreItems hb _ _ items rest)
    have hitems := run_moreItems hn hb items (depth + 1) depth (ofJson item) [] around rest
    rw [chars]
    simp only [List.cons_append, List.append_assoc, List.nil_append]
    rw [run_token _ (by decide) (nextToken_openArray _), run_blank (hb.gap _)]
    exact hitem.trans hitems
  | .obj [] =>
    rw [chars, List.cons_append, List.cons_append, run_token _ (by decide) (nextToken_openObject _),
      run_token _ (by decide) (nextToken_closeObject _)]
    rfl
  | .obj ((key, value) :: fields) =>
    have hvalue := run_chars hn hb value (depth + 1) false (.fields [] (.ok key) :: around)
      (moreFields num blanks (depth + 1) fields ++ (blanks.gap depth ++ '\x7d' :: rest))
      (endsNumber_moreFields hb _ _ fields rest)
    have hfields := run_moreFields hn hb fields (depth + 1) depth (ofJson value) [] key around rest
    rw [chars]
    simp only [List.cons_append, List.append_assoc, List.nil_append]
    rw [run_token _ (by decide) (nextToken_openObject _), run_blank (hb.gap _)]
    exact (run_key hb key _ true [] around).trans (hvalue.trans hfields)

/-- Behind an element the other elements are read, and the array is closed. -/
theorem run_moreItems (hn : Undoes convert num) (hb : blanks.Blank) (items : List Json)
    (depth outer : Nat) (last : Tree) (done : List Tree) (around : List Frame) (rest : List Char) :
    run convert (.separator last (.items done :: around))
        (moreItems num blanks depth items ++ (blanks.gap outer ++ ']' :: rest)) =
      run convert (.separator (.arr (done.reverse ++ last :: ofItems items) none) around) rest := by
  match items with
  | [] =>
    rw [moreItems, List.nil_append, run_blank (hb.gap _),
      run_token _ (by decide) (nextToken_closeArray _)]
    simp only [step, takeSeparator, List.reverse_cons, ofItems]
  | item :: items =>
    have hitem := run_chars hn hb item depth false (.items (last :: done) :: around)
      (moreItems num blanks depth items ++ (blanks.gap outer ++ ']' :: rest))
      (endsNumber_moreItems hb _ _ items rest)
    have hitems := run_moreItems hn hb items depth outer (ofJson item) (last :: done) around rest
    rw [moreItems]
    simp only [List.cons_append, List.append_assoc]
    rw [run_token _ (by decide) (nextToken_comma _), run_blank (hb.gap _)]
    refine (hitem.trans hitems).trans ?_
    simp only [List.reverse_cons, List.append_assoc, List.singleton_append, ofItems]

/-- Behind a field the other fields are read, and the object is closed. -/
theorem run_moreFields (hn : Undoes convert num) (hb : blanks.Blank)
    (fields : List (String × Json)) (depth outer : Nat) (last : Tree)
    (done : List (Except Fault String × Tree)) (key : String) (around : List Frame)
    (rest : List Char) :
    run convert (.separator last (.fields done (.ok key) :: around))
        (moreFields num blanks depth fields ++ (blanks.gap outer ++ '\x7d' :: rest)) =
      run convert
        (.separator (.obj (done.reverse ++ (.ok key, last) :: ofFields fields) none) around)
        rest := by
  match fields with
  | [] =>
    rw [moreFields, List.nil_append, run_blank (hb.gap _),
      run_token _ (by decide) (nextToken_closeObject _)]
    simp only [step, takeSeparator, List.reverse_cons, ofFields]
  | (next, value) :: fields =>
    have hvalue := run_chars hn hb value depth false
      (.fields ((.ok key, last) :: done) (.ok next) :: around)
      (moreFields num blanks depth fields ++ (blanks.gap outer ++ '\x7d' :: rest))
      (endsNumber_moreFields hb _ _ fields rest)
    have hfields := run_moreFields hn hb fields depth outer (ofJson value) ((.ok key, last) :: done)
      next around rest
    rw [moreFields]
    simp only [List.cons_append, List.append_assoc]
    rw [run_token _ (by decide) (nextToken_comma _), run_blank (hb.gap _)]
    refine ((run_key hb next _ false _ around).trans (hvalue.trans hfields)).trans ?_
    simp only [List.reverse_cons, List.append_assoc, List.singleton_append, ofFields]

end

/-- **A written text is scanned into the tree of its value**, and there is nothing behind it, also
when it stands on a line of its own. -/
theorem ofChars_chars (hn : Undoes convert num) (hb : blanks.Blank) (j : Json) {ending : List Char}
    (h : ∀ c ∈ ending, isBlank c = true) :
    ofChars convert (j.chars num blanks 0 ++ ending) = (ofJson j, false) := by
  have hending : EndsNumber ending := by
    rw [← List.append_nil ending]
    exact endsNumber_nil.blank h
  have hrun := run_chars hn hb j 0 false [] ending hending
  have hend : run convert (.separator (ofJson j) []) ending = .separator (ofJson j) [] := by
    rw [← List.append_nil ending, run_blank h, run_nil]
  rw [hend] at hrun
  exact congrArg finish hrun

/-! ## No other value has the tree -/

mutual

/-- Values with one tree are one value. -/
theorem ofJson_inj {i j : Json} (h : ofJson i = ofJson j) : i = j := by
  match i with
  | .null | .bool _ | .num _ | .str _ => cases j <;> simp_all [ofJson]
  | .arr items =>
    cases j with
    | arr others =>
      simp only [ofJson, Tree.arr.injEq, and_true] at h
      rw [ofItems_inj h]
    | _ => exact absurd h (by simp [ofJson])
  | .obj fields =>
    cases j with
    | obj others =>
      simp only [ofJson, Tree.obj.injEq, and_true] at h
      rw [ofFields_inj h]
    | _ => exact absurd h (by simp [ofJson])

theorem ofItems_inj {items others : List Json} (h : ofItems items = ofItems others) :
    items = others := by
  match items, others with
  | [], [] => rfl
  | [], _ :: _ => exact absurd h (by simp [ofItems])
  | _ :: _, [] => exact absurd h (by simp [ofItems])
  | item :: rest, other :: more =>
    rw [ofItems, ofItems, List.cons.injEq] at h
    rw [ofJson_inj h.1, ofItems_inj h.2]

theorem ofFields_inj {fields others : List (String × Json)}
    (h : ofFields fields = ofFields others) : fields = others := by
  match fields, others with
  | [], [] => rfl
  | [], _ :: _ => exact absurd h (by simp [ofFields])
  | _ :: _, [] => exact absurd h (by simp [ofFields])
  | (key, value) :: rest, (other, otherValue) :: more =>
    simp only [ofFields, List.cons.injEq, Prod.mk.injEq, Except.ok.injEq] at h
    rw [h.1.1, ofJson_inj h.1.2, ofFields_inj h.2]

end

end Tree

/-- **A text is one JSON value**: it is scanned into the tree of the value, and nothing is behind
it. A decimal in it stands for the double that is nearest. How deep the value is nested does not
matter here. -/
def Spells (text : String) (j : Json) : Prop :=
  Tree.ofChars Literal.rounded? text.toList = (Tree.ofJson j, false)

/-- A text is no more than one value. -/
theorem Spells.unique {text : String} {i j : Json} (hi : Spells text i) (hj : Spells text j) :
    i = j :=
  Tree.ofJson_inj (congrArg Prod.fst (hi.symm.trans hj))

theorem spells_chars {blanks : Blanks} (hb : blanks.Blank) (j : Json) {ending : List Char}
    (h : ∀ c ∈ ending, isBlank c = true) :
    Spells (String.ofList (j.chars numberChars blanks 0 ++ ending)) j := by
  rw [Spells, String.toList_ofList, Tree.ofChars_chars undoes_rounded hb j h]

/-! ## Lines -/

theorem isBlank_newline : ∀ c ∈ ['\n'], isBlank c = true :=
  List.forall_mem_singleton.mpr (by decide)

theorem text_line (j : Json) :
    j.text ++ "\n" = String.ofList (j.chars numberChars .compact 0 ++ ['\n']) :=
  String.ofList_append.symm

theorem pretty_line (j : Json) :
    j.pretty ++ "\n" = String.ofList (j.chars numberChars .indented 0 ++ ['\n']) :=
  String.ofList_append.symm

theorem spells_text (j : Json) : Spells (j.text ++ "\n") j := by
  rw [text_line]
  exact spells_chars Blanks.compact_blank j isBlank_newline

theorem spells_pretty (j : Json) : Spells (j.pretty ++ "\n") j := by
  rw [pretty_line]
  exact spells_chars Blanks.indented_blank j isBlank_newline

end ViewTree.Json
