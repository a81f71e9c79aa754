import ViewTree.Proofs.Text.Blank
import ViewTree.Rules.Config

/-!
# The form of an assignment

> A text is an assignment if and only if it is a name, an equals sign and a truth value with blanks
> around the two sides, and it is so in one way only.

Names and truth values need no quotes, because what separates them cannot occur in them: a name has
no equals sign, so the first one in the text is the one behind the name, and neither a name nor a
truth value begins or ends with a blank, so the blanks around them are not theirs. Every text either
has the form or one of three faults (`exists_form_or_fault`), and reading a text of either kind is
then a matter of computing (`ofChars_chars`, `ofChars_of_fault`); both equivalences follow, with no
second look at the reader.
-/

set_option autoImplicit false

namespace ViewTree

/-- Saying more of an error changes no success. -/
theorem mapError_eq_ok_iff {ε δ α : Type} {x : Except ε α} {f : ε → δ} {a : α} :
    x.mapError f = .ok a ↔ x = .ok a := by
  cases x with
  | error e => exact iff_of_false nofun nofun
  | ok b => rw [Except.mapError, Except.ok.injEq, Except.ok.injEq]

namespace Assignment

open Text (Blank Padding Trimmed trimList)

/-! ## The first equals sign -/

theorem takeWhile_append {left : List Char} (h : '=' ∉ left) (right : List Char) :
    (left ++ '=' :: right).takeWhile (· ≠ '=') = left :=
  Text.takeWhile_run (fun _ hc => decide_eq_true fun heq => h (heq ▸ hc))
    (Text.stops_cons rfl right)

theorem sides_append {left : List Char} (h : '=' ∉ left) (right : List Char) :
    sides (left ++ '=' :: right) = some (left, right) := by
  have hleft : ∀ c ∈ left, decide (c ≠ '=') = true := fun c hc =>
    decide_eq_true fun heq => h (heq ▸ hc)
  rw [sides, List.dropWhile_append_of_pos hleft, takeWhile_append h]
  rfl

theorem sides_of_not_mem {cs : List Char} (h : '=' ∉ cs) : sides cs = none := by
  have hall : ∀ c ∈ cs, decide (c ≠ '=') = true := fun c hc =>
    decide_eq_true fun heq => h (heq ▸ hc)
  rw [sides, List.dropWhile_eq_nil_iff.mpr hall]

/-! ## Truth values -/

/-- The word for a truth value. -/
def wordOf : Bool → String
  | true => "true"
  | false => "false"

theorem boolOf?_wordOf (value : Bool) : boolOf? (wordOf value).toList = some value := by
  cases value <;> rfl

theorem boolOf?_eq_some_iff {word : List Char} {value : Bool} :
    boolOf? word = some value ↔ word = (wordOf value).toList := by
  constructor
  · intro h
    unfold boolOf? at h
    split at h
    · obtain rfl := Option.some.inj h
      assumption
    · split at h
      · obtain rfl := Option.some.inj h
        assumption
      · cases h
  · rintro rfl
    exact boolOf?_wordOf value

theorem boolOf?_eq_none_iff {word : List Char} :
    boolOf? word = none ↔ ∀ value, word ≠ (wordOf value).toList := by
  rw [Option.eq_none_iff_forall_ne_some]
  exact forall_congr' fun value => not_congr boolOf?_eq_some_iff

theorem trimmed_wordOf (value : Bool) : Trimmed (wordOf value).toList := by
  cases value <;> exact ⟨Text.stops_cons (by decide) _, Text.stops_cons (by decide) _⟩

theorem wordOf_ne_nil (value : Bool) : (wordOf value).toList ≠ [] := by
  cases value <;> exact List.cons_ne_nil _ _

/-! ## The form -/

/-- What a name can be. -/
structure Proper (name : List Char) : Prop extends Trimmed name where
  nonempty : name ≠ []
  noEquals : '=' ∉ name

instance (name : List Char) : Decidable (Proper name) :=
  decidable_of_iff (Trimmed name ∧ name ≠ [] ∧ '=' ∉ name)
    ⟨fun h => ⟨h.1, h.2.1, h.2.2⟩, fun h => ⟨h.toTrimmed, h.nonempty, h.noEquals⟩⟩

/-- **The form of an assignment**: a name and a truth value, with blanks around each. -/
structure Form where
  name : List Char
  value : Bool
  proper : Proper name
  aroundName : Padding
  aroundValue : Padding

namespace Form

/-- The characters of a text that has the form. -/
def chars (f : Form) : List Char :=
  f.aroundName.around f.name ++ '=' :: f.aroundValue.around (wordOf f.value).toList

/-- What a text that has the form assigns. -/
def assignment (f : Form) : Assignment := ⟨String.ofList f.name, f.value⟩

theorem not_mem_left (f : Form) : '=' ∉ f.aroundName.around f.name :=
  f.aroundName.not_mem_around (by decide) f.proper.noEquals

/-- **A text has the form in one way only.** -/
theorem chars_inj {f g : Form} (h : f.chars = g.chars) : f = g := by
  have hsides := congrArg sides h
  rw [chars, chars, sides_append f.not_mem_left, sides_append g.not_mem_left] at hsides
  obtain ⟨hleft, hright⟩ := Prod.mk.inj (Option.some.inj hsides)
  obtain ⟨haroundName, hname⟩ :=
    Text.around_inj f.proper.toTrimmed g.proper.toTrimmed f.proper.nonempty hleft
  obtain ⟨haroundValue, hword⟩ :=
    Text.around_inj (trimmed_wordOf f.value) (trimmed_wordOf g.value) (wordOf_ne_nil f.value) hright
  have hvalue : f.value = g.value := by
    rw [← Option.some_inj, ← boolOf?_wordOf, hword, boolOf?_wordOf]
  cases f
  cases g
  congr

end Form

/-! ## The faults -/

/-- **What is wrong with a text that is no assignment**: the first of three things. -/
inductive Fault : List Char → Cause → Prop
  | noEquals {cs : List Char} : '=' ∉ cs → Fault cs .noEquals
  | emptyName {left : List Char} (right : List Char) :
    Blank left → Fault (left ++ '=' :: right) .emptyName
  | notBoolean {left word : List Char} (p : Padding) : '=' ∉ left → ¬ Blank left → Trimmed word →
    (∀ value, word ≠ (wordOf value).toList) →
    Fault (left ++ '=' :: p.around word) (.notBoolean (String.ofList word))

/-- Trimming what stands before an equals sign gives a name, unless there are only blanks. -/
theorem proper_trimList {left : List Char} (h : '=' ∉ left) (hne : ¬ Blank left) :
    Proper (trimList left) where
  toTrimmed := Text.trimmed_trimList left
  nonempty := fun heq => hne (Text.trimList_eq_nil_iff.mp heq)
  noEquals := fun hmem => by
    obtain ⟨p, hp⟩ := Text.exists_around_trimList left
    exact h (hp ▸ p.mem_around_of_mem hmem)

/-- **A text has the form or a fault.** -/
theorem exists_form_or_fault (cs : List Char) :
    (∃ f : Form, f.chars = cs) ∨ ∃ cause, Fault cs cause := by
  by_cases hmem : '=' ∈ cs
  · obtain ⟨left, right, rfl, hleft⟩ := List.eq_append_cons_of_mem hmem
    by_cases hblank : Blank left
    · exact .inr ⟨.emptyName, .emptyName right hblank⟩
    · obtain ⟨p, hp⟩ := Text.exists_around_trimList left
      obtain ⟨word, hword⟩ : ∃ word, trimList right = word := ⟨_, rfl⟩
      obtain ⟨htrimmed, q, rfl⟩ := Text.trimList_eq_iff.mp hword
      cases hvalue : boolOf? word with
      | none => exact .inr ⟨_, .notBoolean q hleft hblank htrimmed (boolOf?_eq_none_iff.mp hvalue)⟩
      | some value =>
        obtain rfl := boolOf?_eq_some_iff.mp hvalue
        refine .inl ⟨⟨trimList left, value, proper_trimList hleft hblank, p, q⟩, ?_⟩
        rw [Form.chars, ← hp]
  · exact .inr ⟨.noEquals, .noEquals hmem⟩

/-! ## Reading -/

/-- **What has the form is read.** -/
theorem ofChars_chars (f : Form) : ofChars f.chars = .ok f.assignment := by
  rw [ofChars, Form.chars, sides_append f.not_mem_left]
  dsimp only
  rw [Text.trimList_around _ f.proper.toTrimmed, Text.trimList_around _ (trimmed_wordOf f.value),
    if_neg f.proper.nonempty, boolOf?_wordOf]
  rfl

/-- **What has a fault is refused**, and the fault is told. -/
theorem ofChars_of_fault {cs : List Char} {cause : Cause} (h : Fault cs cause) :
    ofChars cs = .error cause := by
  cases h with
  | noEquals hmem => rw [ofChars, sides_of_not_mem hmem]
  | emptyName right hblank =>
    rw [ofChars, sides_append (Text.not_mem_of_blank (by decide) hblank)]
    dsimp only
    rw [if_pos (Text.trimList_eq_nil_iff.mpr hblank)]
  | @notBoolean left word p hleft hne hword hvalue =>
    rw [ofChars, sides_append hleft]
    dsimp only
    rw [if_neg fun heq => hne (Text.trimList_eq_nil_iff.mp heq), Text.trimList_around p hword,
      boolOf?_eq_none_iff.mpr hvalue]

theorem ofChars_eq_ok_iff {cs : List Char} {a : Assignment} :
    ofChars cs = .ok a ↔ ∃ f : Form, f.chars = cs ∧ f.assignment = a := by
  constructor
  · intro h
    rcases exists_form_or_fault cs with ⟨f, rfl⟩ | ⟨cause, hfault⟩
    · exact ⟨f, rfl, Except.ok.inj ((ofChars_chars f).symm.trans h)⟩
    · exact absurd ((ofChars_of_fault hfault).symm.trans h) (by simp)
  · rintro ⟨f, rfl, rfl⟩
    exact ofChars_chars f

theorem ofChars_eq_error_iff {cs : List Char} {cause : Cause} :
    ofChars cs = .error cause ↔ Fault cs cause := by
  constructor
  · intro h
    rcases exists_form_or_fault cs with ⟨f, rfl⟩ | ⟨other, hfault⟩
    · exact absurd ((ofChars_chars f).symm.trans h) (by simp)
    · obtain rfl := Except.error.inj ((ofChars_of_fault hfault).symm.trans h)
      exact hfault
  · exact ofChars_of_fault

theorem parse_eq_ok_iff {raw : String} {a : Assignment} :
    parse raw = .ok a ↔ ∃ f : Form, f.chars = raw.toList ∧ f.assignment = a := by
  rw [← ofChars_eq_ok_iff, parse, mapError_eq_ok_iff]

theorem parse_eq_error_iff {raw : String} {e : Error} :
    parse raw = .error e ↔ e.raw = raw ∧ Fault raw.toList e.cause := by
  obtain ⟨text, cause⟩ := e
  rw [← ofChars_eq_error_iff, parse]
  cases ofChars raw.toList with
  | ok b => exact iff_of_false nofun fun h => nomatch h.2
  | error other =>
    simp only [Except.mapError, Except.error.injEq, Error.mk.injEq]
    exact and_congr eq_comm Iff.rfl

-- The first equals sign separates, and an empty name is told before a bad value.
example : parse "a = b = true" = .error ⟨"a = b = true", .notBoolean "b = true"⟩ := rfl

example : parse " = yes" = .error ⟨" = yes", .emptyName⟩ := rfl

/-- The name that a text assigns to, if it assigns: what stands before the first equals sign,
without the blanks around it. -/
def nameOf (raw : String) : String :=
  Text.trim (String.ofList (raw.toList.takeWhile (· ≠ '=')))

theorem name_of_parse {raw : String} {a : Assignment} (h : parse raw = .ok a) :
    a.name = nameOf raw := by
  obtain ⟨f, hf, rfl⟩ := parse_eq_ok_iff.mp h
  rw [nameOf, ← hf, Form.chars, takeWhile_append f.not_mem_left, Text.trim, String.toList_ofList,
    Text.trimList_around _ f.proper.toTrimmed]
  rfl

theorem proper_of_parse {raw : String} {a : Assignment} (h : parse raw = .ok a) :
    Proper a.name.toList := by
  obtain ⟨f, -, rfl⟩ := parse_eq_ok_iff.mp h
  rw [Form.assignment, String.toList_ofList]
  exact f.proper

/-- **A text is an assignment if and only if it has the form**, in one way only, and then it assigns
the form's value to the form's name. Any other text is refused for the first fault it has. So an
assignment can be written down for every proper name and value, and whatever is assigned, a name
that is not proper keeps its value. -/
theorem assignments_have_one_form (raw : String) :
    (∀ a, parse raw = .ok a ↔ ∃ f : Form, f.chars = raw.toList ∧ f.assignment = a) ∧
    (∀ f g : Form, f.chars = raw.toList → g.chars = raw.toList → f = g) ∧
    (∀ e, parse raw = .error e ↔ e.raw = raw ∧ Fault raw.toList e.cause) ∧
    (∀ name value, Proper name.toList →
      parse (name ++ "=" ++ wordOf value) = .ok ⟨name, value⟩) ∧
    ∀ values result assignments, RuleValues.assign values assignments = .ok result →
      ∀ name, ¬ Proper name.toList → result.get? name = values.get? name := by
  refine ⟨fun a => parse_eq_ok_iff, fun f g hf hg => Form.chars_inj (hf.trans hg.symm),
    fun e => parse_eq_error_iff, fun name value hname => ?_,
    fun values result assignments h name hname => ?_⟩
  · refine parse_eq_ok_iff.mpr ⟨⟨name.toList, value, hname, .empty, .empty⟩, ?_, ?_⟩
    · rw [String.toList_append, String.toList_append, List.append_assoc, Form.chars,
        Padding.around_empty, Padding.around_empty]
      rfl
    · rw [Form.assignment, String.ofList_toList]
  · refine RuleValues.get?_assign_of_forall_ne h fun text _ a ha => ?_
    rintro rfl
    exact hname (proper_of_parse ha)

/-- Blanks of four kinds around the sides, and one inside the name. -/
def spaced : Form where
  name := "night mode".toList
  value := false
  proper := by decide
  aroundName := ⟨['\u3000'], ['\t', ' '], by decide, by decide⟩
  aroundValue := ⟨[], ['\n'], by decide, by decide⟩

theorem assignments_have_one_form_spaced :
    parse "\u3000night mode\t =false\n" = .ok ⟨"night mode", false⟩ ∧
      Proper "night mode".toList ∧
      parse ("night mode" ++ "=" ++ wordOf true) = .ok ⟨"night mode", true⟩ ∧
      ¬ Proper "night mode ".toList ∧
      ∃ result, RuleValues.assign .empty ["\u3000night mode\t =false\n"] = .ok result ∧
        result.get? "night mode " = none := by
  obtain ⟨hok, -, -, hbare, hkeep⟩ := assignments_have_one_form "\u3000night mode\t =false\n"
  have hproper : Proper "night mode".toList := by decide
  have himproper : ¬ Proper "night mode ".toList := by decide
  exact ⟨(hok _).mpr ⟨spaced, rfl, rfl⟩, hproper, hbare _ true hproper, himproper, _, rfl,
    hkeep .empty _ ["\u3000night mode\t =false\n"] rfl _ himproper⟩

end Assignment

end ViewTree
