import Mathlib.Data.List.Basic
import ViewTree.Proofs.Json.Compact
import ViewTree.Proofs.Text.Quoted
import ViewTree.Proofs.Text.Record
import ViewTree.View.Outline

/-!
# One line of an outline

A line has the kind of a widget, its title if there is one, and its properties if there are any.
Nothing on it says how long a part is, so each part has to be told from the next one by where it
ends: the kind and the keys because they are **words** and what follows them is none of their
characters, the title because it is quoted, a value because it is JSON.

Of the writer of values no more is known than what a line asks of it (`Json.Inline`).

The kind and the keys are the only parts that are written as they are. That is why something is
asked of them and nothing of titles and values, whatever quotes, braces, commas, equals signs and
line breaks there are in these: a line says what the widget says (`heading_append_inj`).

Behind a word there is a space, an equals sign or the end of the line. A space is before a title or
before properties, and the character behind it says which: a quote or a brace.
-/

set_option autoImplicit false

namespace ViewTree

open Spelling (isNumeric)
open Text (Stops run_append_inj stops_cons)

/-! ## Words -/

namespace Text

/-- ASCII letters, digits and the underscore. -/
def isWordChar (c : Char) : Bool := c.isAlphanum || c = '_'

/-- Whether a text is a word: such characters, and at least one. -/
def isWord (s : String) : Bool := !s.toList.isEmpty && s.toList.all isWordChar

theorem isWordChar_of_mem {s : String} (h : isWord s = true) :
    ∀ c ∈ s.toList, isWordChar c = true := by
  rw [isWord, Bool.and_eq_true, List.all_eq_true] at h
  exact h.2

/-- A word begins with one of its characters. -/
theorem exists_wordChar_of_isWord {s : String} (h : isWord s = true) :
    ∃ c cs, s.toList = c :: cs ∧ isWordChar c = true := by
  have hchars := isWordChar_of_mem h
  cases hs : s.toList with
  | nil =>
    rw [isWord, hs] at h
    exact absurd h (by simp)
  | cons c cs => exact ⟨c, cs, rfl, hchars c (hs ▸ List.mem_cons_self)⟩

/-- **A word is known, and so is where it ends**, if what follows does not continue it. -/
theorem word_append_inj {s t : String} {rest rest' : List Char} (hs : isWord s = true)
    (ht : isWord t = true) (hrest : Stops isWordChar rest) (hrest' : Stops isWordChar rest')
    (h : s.toList ++ rest = t.toList ++ rest') : s = t ∧ rest = rest' := by
  obtain ⟨hst, hrests⟩ :=
    run_append_inj (isWordChar_of_mem hs) (isWordChar_of_mem ht) hrest hrest' h
  exact ⟨String.toList_inj.mp hst, hrests⟩

theorem newline_not_mem_word {s : String} (h : isWord s = true) : '\n' ∉ s.toList := fun hn =>
  absurd (isWordChar_of_mem h '\n' hn) (by decide)

end Text

open Text (isWord isWordChar word_append_inj)

namespace View

/-! ## Properties -/

section Characters

variable (write : Json → String)

/-- The characters of a property. -/
def propertyChars (entry : String × Json) : List Char :=
  entry.1.toList ++ '=' :: (write entry.2).toList

/-- The characters of the properties behind the first one, up to the brace. -/
def morePropertiesChars (entries : List (String × Json)) : List Char :=
  entries.flatMap fun entry => ',' :: ' ' :: propertyChars write entry

theorem morePropertiesChars_cons (entry : String × Json) (rest : List (String × Json)) :
    morePropertiesChars write (entry :: rest) =
      ',' :: ' ' :: (propertyChars write entry ++ morePropertiesChars write rest) := rfl

theorem toList_property (entry : String × Json) :
    (entry.1 ++ "=" ++ write entry.2).toList = propertyChars write entry := by
  rw [String.toList_append, String.toList_append, List.append_assoc]
  rfl

theorem intercalate_propertyChars (entry : String × Json) (rest : List (String × Json)) :
    ([',', ' '] : List Char).intercalate ((entry :: rest).map (propertyChars write)) =
      propertyChars write entry ++ morePropertiesChars write rest := by
  rw [List.map_cons, Text.intercalate_cons, List.flatMap_map]
  rfl

/-- The properties of a widget with what comes behind them. -/
theorem propertiesText_append (properties : Dictionary Json) (rest : List Char) :
    (propertiesText write properties).toList ++ rest =
      match properties.entries with
      | [] => rest
      | entry :: more =>
        ' ' :: '\x7b' :: (propertyChars write entry ++
          (morePropertiesChars write more ++ '\x7d' :: rest)) := by
  obtain ⟨entries, hordered⟩ := properties
  cases entries with
  | nil => rfl
  | cons entry more =>
    have hmap : ((entry :: more).map fun entry => entry.1 ++ "=" ++ write entry.2).map
        String.toList = (entry :: more).map (propertyChars write) := by
      rw [List.map_map]
      exact List.map_congr_left fun entry _ => toList_property write entry
    rw [propertiesText, if_neg (by simp [Dictionary.isEmpty]), String.toList_append,
      String.toList_append, String.toList_intercalate, hmap]
    show ([' ', '\x7b'] ++ [',', ' '].intercalate _ ++ ['\x7d']) ++ rest = _
    rw [intercalate_propertyChars, List.append_assoc, List.append_assoc, List.append_assoc]
    rfl

end Characters

variable {write : Json → String}

/-- **A property is known, and so is where it ends**, if what follows does not continue a number. -/
theorem property_append_inj (hw : Json.Inline write) {entry entry' : String × Json}
    {rest rest' : List Char}
    (hkey : isWord entry.1 = true) (hkey' : isWord entry'.1 = true)
    (hrest : Stops isNumeric rest) (hrest' : Stops isNumeric rest')
    (h : propertyChars write entry ++ rest = propertyChars write entry' ++ rest') :
    entry = entry' ∧ rest = rest' := by
  rw [propertyChars, propertyChars, List.append_assoc, List.append_assoc] at h
  obtain ⟨hkeys, hvalues⟩ :=
    word_append_inj hkey hkey' (stops_cons (by decide) _) (stops_cons (by decide) _) h
  obtain ⟨hvalue, hrests⟩ := hw.append_inj hrest hrest' (List.cons.inj hvalues).2
  exact ⟨Prod.ext hkeys hvalue, hrests⟩

theorem stops_moreProperties (entries : List (String × Json)) (rest : List Char) :
    Stops isNumeric (morePropertiesChars write entries ++ '\x7d' :: rest) := by
  cases entries with
  | nil => exact stops_cons (by decide) rest
  | cons entry more => exact stops_cons (c := ',') (by decide) _

theorem moreProperties_append_inj (hw : Json.Inline write) {more more' : List (String × Json)}
    {rest rest' : List Char}
    (hkeys : ∀ e ∈ more, isWord e.1 = true) (hkeys' : ∀ e ∈ more', isWord e.1 = true)
    (h : morePropertiesChars write more ++ '\x7d' :: rest =
      morePropertiesChars write more' ++ '\x7d' :: rest') : more = more' ∧ rest = rest' := by
  induction more generalizing more' with
  | nil =>
    cases more' with
    | nil => exact ⟨rfl, (List.cons.inj h).2⟩
    | cons entry' more' => exact absurd (List.cons.inj h).1 (by decide)
  | cons entry more ih =>
    cases more' with
    | nil => exact absurd (List.cons.inj h).1 (by decide)
    | cons entry' more' =>
      rw [morePropertiesChars_cons, morePropertiesChars_cons, List.cons_append, List.cons_append,
        List.cons_append, List.cons_append, List.append_assoc, List.append_assoc] at h
      obtain ⟨rfl, hmore⟩ := property_append_inj hw (hkeys entry List.mem_cons_self)
        (hkeys' entry' List.mem_cons_self) (stops_moreProperties more rest)
        (stops_moreProperties more' rest') (List.cons.inj (List.cons.inj h).2).2
      obtain ⟨rfl, hrest⟩ := ih (fun e he => hkeys e (List.mem_cons_of_mem _ he))
        (fun e he => hkeys' e (List.mem_cons_of_mem _ he)) hmore
      exact ⟨rfl, hrest⟩

variable {properties properties' : Dictionary Json} {title title' : Option String}
  {kind kind' : String} {rest rest' : List Char}

/-- **The properties are known one by one**, and so is where they end. -/
theorem properties_append_inj (hw : Json.Inline write)
    (hkeys : ∀ e ∈ properties.entries, isWord e.1 = true)
    (hkeys' : ∀ e ∈ properties'.entries, isWord e.1 = true)
    (h : (propertiesText write properties).toList ++ '\n' :: rest =
      (propertiesText write properties').toList ++ '\n' :: rest') :
    properties = properties' ∧ rest = rest' := by
  rw [propertiesText_append, propertiesText_append] at h
  obtain ⟨entries, hordered⟩ := properties
  obtain ⟨entries', hordered'⟩ := properties'
  cases entries with
  | nil =>
    cases entries' with
    | nil => exact ⟨rfl, (List.cons.inj h).2⟩
    | cons entry' more' => exact absurd (List.cons.inj h).1 (by decide)
  | cons entry more =>
    cases entries' with
    | nil => exact absurd (List.cons.inj h).1 (by decide)
    | cons entry' more' =>
      obtain ⟨rfl, hmore⟩ := property_append_inj hw (hkeys entry List.mem_cons_self)
        (hkeys' entry' List.mem_cons_self) (stops_moreProperties more _)
        (stops_moreProperties more' _) (List.cons.inj (List.cons.inj h).2).2
      obtain ⟨rfl, hrest⟩ := moreProperties_append_inj hw
        (fun e he => hkeys e (List.mem_cons_of_mem _ he))
        (fun e he => hkeys' e (List.mem_cons_of_mem _ he)) hmore
      exact ⟨rfl, (List.cons.inj hrest).2⟩

/-! ## Lines -/

/-- A space and a quote are never the beginning of properties, nor of the end of a line. -/
theorem quoted_ne_propertiesText (s : String) (cs : List Char) :
    ' ' :: ((Text.quoted s).toList ++ cs) ≠
      (propertiesText write properties).toList ++ '\n' :: rest := by
  intro h
  rw [propertiesText_append, Text.toList_quoted] at h
  split at h
  · exact absurd (List.cons.inj h).1 (by decide)
  · exact absurd (List.cons.inj (List.cons.inj h).2).1 (by decide)

theorem titleText_some_append (s : String) (cs : List Char) :
    (titleText (some s)).toList ++ cs = ' ' :: ((Text.quoted s).toList ++ cs) := by
  rw [titleText, String.toList_append, List.append_assoc]
  rfl

/-- **The title is known**, and whether there is one. -/
theorem title_append_inj
    (h : (titleText title).toList ++ ((propertiesText write properties).toList ++ '\n' :: rest) =
      (titleText title').toList ++ ((propertiesText write properties').toList ++ '\n' :: rest')) :
    title = title' ∧ (propertiesText write properties).toList ++ '\n' :: rest =
      (propertiesText write properties').toList ++ '\n' :: rest' := by
  cases title with
  | none =>
    cases title' with
    | none => exact ⟨rfl, h⟩
    | some s' =>
      rw [titleText_some_append] at h
      exact absurd h.symm (quoted_ne_propertiesText s' _)
  | some s =>
    cases title' with
    | none =>
      rw [titleText_some_append] at h
      exact absurd h (quoted_ne_propertiesText s _)
    | some s' =>
      rw [titleText_some_append, titleText_some_append] at h
      obtain ⟨rfl, hrest⟩ := Text.quoted_append_inj (List.cons.inj h).2
      exact ⟨rfl, hrest⟩

/-- What is behind a kind does not continue it. -/
theorem stops_title (title : Option String) (properties : Dictionary Json) (rest : List Char) :
    Stops isWordChar
      ((titleText title).toList ++ ((propertiesText write properties).toList ++ '\n' :: rest)) := by
  cases title with
  | none =>
    show Stops isWordChar ((propertiesText write properties).toList ++ '\n' :: rest)
    rw [propertiesText_append]
    split <;> exact stops_cons (by decide) _
  | some s =>
    rw [titleText_some_append]
    exact stops_cons (by decide) _

/-- **A line says what the widget says**, and no title and no value can make it say anything else.
-/
theorem heading_append_inj (hw : Json.Inline write) (hkind : isWord kind = true)
    (hkind' : isWord kind' = true)
    (hkeys : ∀ e ∈ properties.entries, isWord e.1 = true)
    (hkeys' : ∀ e ∈ properties'.entries, isWord e.1 = true)
    (h : (heading write kind title properties).toList ++ '\n' :: rest =
      (heading write kind' title' properties').toList ++ '\n' :: rest') :
    kind = kind' ∧ title = title' ∧ properties = properties' ∧ rest = rest' := by
  rw [heading, heading, String.toList_append, String.toList_append, String.toList_append,
    String.toList_append, List.append_assoc, List.append_assoc, List.append_assoc,
    List.append_assoc] at h
  obtain ⟨hkinds, htitles⟩ := word_append_inj hkind hkind' (stops_title _ _ _) (stops_title _ _ _) h
  obtain ⟨htitle, hproperties⟩ := title_append_inj htitles
  obtain ⟨hproperty, hrest⟩ := properties_append_inj hw hkeys hkeys' hproperties
  exact ⟨hkinds, htitle, hproperty, hrest⟩

theorem newline_not_mem_property (hw : Json.Inline write) {entry : String × Json}
    (hkey : isWord entry.1 = true) : '\n' ∉ propertyChars write entry := by
  have hword := Text.newline_not_mem_word hkey
  have hvalue := hw.unbroken entry.2
  simp [propertyChars, hword, hvalue]

theorem newline_not_mem_properties (hw : Json.Inline write)
    (hkeys : ∀ e ∈ properties.entries, isWord e.1 = true) :
    '\n' ∉ (propertiesText write properties).toList := by
  have htext := propertiesText_append write properties []
  rw [List.append_nil] at htext
  rw [htext]
  split
  · exact List.not_mem_nil
  · rename_i entry more hentries
    rw [hentries] at hkeys
    have hentry := newline_not_mem_property hw (hkeys entry List.mem_cons_self)
    have hmore : '\n' ∉ morePropertiesChars write more := by
      intro hn
      obtain ⟨e, he, hn⟩ := List.mem_flatMap.mp hn
      have hproperty := newline_not_mem_property hw (hkeys e (List.mem_cons_of_mem _ he))
      simp [hproperty] at hn
    simp [hentry, hmore]

/-- **A widget has one line.** -/
theorem newline_not_mem_heading (hw : Json.Inline write) (title : Option String)
    (hkind : isWord kind = true)
    (hkeys : ∀ e ∈ properties.entries, isWord e.1 = true) :
    '\n' ∉ (heading write kind title properties).toList := by
  have hword := Text.newline_not_mem_word hkind
  have hproperties := newline_not_mem_properties hw hkeys
  rw [heading, String.toList_append, String.toList_append, List.mem_append, List.mem_append]
  rintro ((hn | hn) | hn)
  · exact hword hn
  · cases title with
    | none => exact absurd hn List.not_mem_nil
    | some s =>
      have htext := titleText_some_append s []
      rw [List.append_nil, List.append_nil] at htext
      rw [htext] at hn
      exact Text.newline_not_mem_quoted s (List.mem_of_ne_of_mem (by decide) hn)
  · exact hproperties hn

/-- A line begins with its kind, so it does not begin with a space. -/
theorem exists_head_heading (write : Json → String) (title : Option String)
    (properties : Dictionary Json) (hkind : isWord kind = true) :
    ∃ c cs, (heading write kind title properties).toList = c :: cs ∧ c ≠ ' ' := by
  obtain ⟨c, cs, hcs, hc⟩ := Text.exists_wordChar_of_isWord hkind
  refine ⟨c, cs ++ (titleText title).toList ++ (propertiesText write properties).toList, ?_, ?_⟩
  · rw [heading, String.toList_append, String.toList_append, hcs, List.cons_append,
      List.cons_append]
  · rintro rfl
    exact absurd hc (by decide)

end View

end ViewTree
