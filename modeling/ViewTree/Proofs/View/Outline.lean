import ViewTree.Proofs.Render.Places
import ViewTree.Proofs.View.Heading

/-!
# Reading an outline

An outline is the lines of the widgets from top to bottom, the widgets inside one behind it and two
spaces further in. So there are two things to say of it. **Every line has its widget**: there are as
many lines as widgets, in the order of the places, and a line is indented by the length of its place
(`outline_lines`). And **every widget is known from the lines** (`outline_append_inj`).

The second part needs a view to be **plain**, that is, its kinds and the keys of its properties are
words. A line is then known up to its break, and what is left is where the widgets inside a widget
end. They end where the lines are no longer further in. So the characters behind a view are not
arbitrary: they are none, or a line at most as far in as the view itself (`Resumes`), and this is
what carries the induction. For the widgets side by side in a list it says that the next one is not
inside the last one; for the end of the list, that what comes then is not one more of them.

Spaces count only because no line begins with one: it begins with its kind, which is a word.
-/

set_option autoImplicit false

namespace ViewTree.View

open Text (isWord run_append_inj stops_cons)

/-- **A view whose kinds and keys are words.** Nothing is asked of titles and values. -/
inductive Plain : View → Prop
  | widget {v : View} (kind : isWord v.kind = true)
    (keys : ∀ entry ∈ v.properties.entries, isWord entry.1 = true)
    (inside : ∀ c ∈ v.children, Plain c) : Plain v

theorem Plain.kind {v : View} (h : v.Plain) : isWord v.kind = true := by
  obtain ⟨hkind, -, -⟩ := h
  exact hkind

theorem Plain.keys {v : View} (h : v.Plain) :
    ∀ entry ∈ v.properties.entries, isWord entry.1 = true := by
  obtain ⟨-, hkeys, -⟩ := h
  exact hkeys

theorem Plain.inside {v : View} (h : v.Plain) : ∀ c ∈ v.children, c.Plain := by
  obtain ⟨-, -, hinside⟩ := h
  exact hinside

theorem Plain.follow {v w : View} {p : Place} (h : v.Plain)
    (hw : follow View.children v p = some w) : w.Plain := by
  induction p generalizing v with
  | nil =>
    obtain rfl := Option.some.inj hw
    exact h
  | cons i p ih =>
    obtain ⟨c, hc, hw⟩ := follow_cons_eq_some.mp hw
    exact ih (h.inside c (List.mem_of_getElem? hc)) hw

/-! ## The widgets of the lines -/

section Lines

variable (write : Json → String)

/-- What the line of a widget says. -/
def words (v : View) : String := heading write v.kind v.title v.properties

theorem outlineLinesAll_eq_flatMap (depth : Nat) (children : List View) :
    outlineLinesAll write depth children = children.flatMap (outlineLines write depth) := by
  induction children with
  | nil => rfl
  | cons v rest ih => rw [outlineLinesAll, ih, List.flatMap_cons]

theorem walks_outlineLines :
    Walks View.children (fun depth v => outlineLine depth (v.words write))
      (outlineLines write) where
  eq depth v := by
    obtain ⟨kind, title, properties, children⟩ := v
    rw [outlineLines, outlineLinesAll_eq_flatMap]
    rfl

/-- The line of a widget at a level: two spaces for each level and no more, and no line break. -/
structure LineOf (w : View) (level : Nat) (line : String) : Prop where
  indented : line.toList = List.replicate (2 * level) ' ' ++ (w.words write).toList
  flush : (w.words write).toList.head? ≠ some ' '
  unbroken : '\n' ∉ line.toList

end Lines

variable {write : Json → String}

theorem lineOf_words (hwrite : Json.Inline write) {w : View} (hw : w.Plain) (level : Nat) :
    LineOf write w level (String.ofList (List.replicate (2 * level) ' ') ++ w.words write) := by
  have hindented : (String.ofList (List.replicate (2 * level) ' ') ++ w.words write).toList =
      List.replicate (2 * level) ' ' ++ (w.words write).toList := by
    rw [String.toList_append, String.toList_ofList]
  refine ⟨hindented, ?_, ?_⟩
  · obtain ⟨c, cs, hcs, hc⟩ := exists_head_heading write w.title w.properties hw.kind
    rw [words, hcs, List.head?_cons]
    exact fun hspace => hc (Option.some.inj hspace)
  · have hwords : '\n' ∉ (w.words write).toList :=
      newline_not_mem_heading hwrite w.title hw.kind hw.keys
    rw [hindented, List.mem_append, List.mem_replicate]
    rintro (⟨-, hn⟩ | hn)
    · exact absurd hn (by decide)
    · exact hwords hn

/-- **A plain view has one line for each widget.** -/
theorem outline_lines (hwrite : Json.Inline write) {v : View} (hv : v.Plain) :
    ∃ lines : List String, v.outlineWith write = String.join (lines.map (· ++ "\n")) ∧
      List.Forall₂ (fun line p => ∃ w, follow View.children v p = some w ∧
        LineOf write w p.length line) lines v.places := by
  have hended : List.Forall₂ (fun ended p => ∃ line, ended = line ++ "\n" ∧
      ∃ w, follow View.children v p = some w ∧ LineOf write w p.length line)
      (v.outlineLines write 0) v.places := by
    refine ((walks_outlineLines write).lines_places lists_places v 0).imp ?_
    rintro ended p ⟨w, hw, rfl⟩
    rw [Nat.zero_add]
    exact ⟨_, rfl, w, hw, lineOf_words hwrite (hv.follow hw) p.length⟩
  obtain ⟨lines, hlines, heach⟩ := exists_map_of_forall₂ hended
  exact ⟨lines, congrArg String.join hlines, heach⟩

/-! ## The characters -/

section Characters

variable (write : Json → String)

/-- The characters of a view that stands at a depth. -/
def outlineChars (depth : Nat) (v : View) : List Char :=
  (v.outlineLines write depth).flatMap String.toList

/-- The characters of several views. -/
def outlineCharsAll (depth : Nat) (vs : List View) : List Char :=
  (outlineLinesAll write depth vs).flatMap String.toList

theorem toList_outlineWith (v : View) : (v.outlineWith write).toList = outlineChars write 0 v := by
  rw [outlineWith, String.toList_join, outlineChars]

theorem outlineChars_append (depth : Nat) (v : View) (rest : List Char) :
    outlineChars write depth v ++ rest =
      List.replicate (2 * depth) ' ' ++
        ((v.words write).toList ++
          '\n' :: (outlineCharsAll write (depth + 1) v.children ++ rest)) := by
  obtain ⟨kind, title, properties, children⟩ := v
  rw [outlineChars, outlineLines, List.flatMap_cons, outlineLine, String.toList_append,
    String.toList_append, String.toList_ofList, List.append_assoc, List.append_assoc,
    List.append_assoc]
  rfl

theorem outlineCharsAll_cons_append (depth : Nat) (v : View) (vs : List View) (rest : List Char) :
    outlineCharsAll write depth (v :: vs) ++ rest =
      outlineChars write depth v ++ (outlineCharsAll write depth vs ++ rest) := by
  rw [outlineCharsAll, outlineLinesAll, List.flatMap_append, List.append_assoc]
  rfl

end Characters

/-! ## Where a view ends -/

/-- So many spaces, and then something else. -/
def Indented (width : Nat) (cs : List Char) : Prop :=
  ∃ c rest, c ≠ ' ' ∧ cs = List.replicate width ' ' ++ c :: rest

/-- What comes behind the widgets at a depth: nothing, or a line that is at most as far in. -/
def Resumes (depth : Nat) (cs : List Char) : Prop :=
  cs = [] ∨ ∃ d ≤ depth, Indented (2 * d) cs

theorem Indented.width_eq {m n : Nat} {cs : List Char} (hm : Indented m cs) (hn : Indented n cs) :
    m = n := by
  obtain ⟨c, rest, hc, hcs⟩ := hm
  obtain ⟨c', rest', hc', hcs'⟩ := hn
  have hspace (k : Nat) : ∀ d ∈ List.replicate k ' ', (d == ' ') = true := fun d hd =>
    beq_iff_eq.mpr (List.eq_of_mem_replicate hd)
  have hstops {d : Char} (hd : d ≠ ' ') (ds : List Char) : Text.Stops (· == ' ') (d :: ds) :=
    stops_cons (p := (· == ' ')) (beq_false_of_ne hd) ds
  obtain ⟨hspaces, -⟩ := run_append_inj (hspace m) (hspace n) (hstops hc rest) (hstops hc' rest')
    (hcs.symm.trans hcs')
  have hlength := congrArg List.length hspaces
  rwa [List.length_replicate, List.length_replicate] at hlength

/-- A line is indented by its depth and no further. -/
theorem indented_outlineChars (write : Json → String) {v : View} (hv : isWord v.kind = true)
    (depth : Nat) (rest : List Char) :
    Indented (2 * depth) (outlineChars write depth v ++ rest) := by
  obtain ⟨c, cs, hcs, hc⟩ := exists_head_heading write v.title v.properties hv
  refine ⟨c, cs ++ '\n' :: (outlineCharsAll write (depth + 1) v.children ++ rest), hc, ?_⟩
  rw [outlineChars_append, words, hcs, List.cons_append]

/-- Views are followed by what is no further in, if the characters behind them are. -/
theorem resumes_outlineCharsAll {vs : List View} (hvs : ∀ v ∈ vs, isWord v.kind = true)
    {depth : Nat} {rest : List Char} (h : Resumes depth rest) :
    Resumes (depth + 1) (outlineCharsAll write (depth + 1) vs ++ rest) := by
  cases vs with
  | nil =>
    rcases h with h | ⟨d, hd, h⟩
    · exact .inl h
    · exact .inr ⟨d, Nat.le_succ_of_le hd, h⟩
  | cons v vs =>
    rw [outlineCharsAll_cons_append]
    exact .inr ⟨depth + 1, Nat.le_refl _,
      indented_outlineChars write (hvs v List.mem_cons_self) _ _⟩

/-- What comes behind a list of views is not one more of them. -/
theorem not_resumes_outlineChars {v : View} (hv : isWord v.kind = true) (depth : Nat)
    (rest : List Char) : ¬ Resumes depth (outlineChars write (depth + 1) v ++ rest) := by
  have hindented := indented_outlineChars write hv (depth + 1) rest
  rintro (h | ⟨d, hd, h⟩)
  · obtain ⟨c, cs, -, hcs⟩ := hindented
    rw [h] at hcs
    exact absurd hcs (by simp)
  · have hwidth := hindented.width_eq h
    omega

theorem outlineAll_append_inj {vs : List View} {depth : Nat}
    (ih : ∀ v ∈ vs, ∀ w rest rest', v.Plain → w.Plain → Resumes (depth + 1) rest →
      Resumes (depth + 1) rest' →
      outlineChars write (depth + 1) v ++ rest = outlineChars write (depth + 1) w ++ rest' →
      v = w ∧ rest = rest')
    {ws : List View} {rest rest' : List Char} (hvs : ∀ v ∈ vs, v.Plain) (hws : ∀ w ∈ ws, w.Plain)
    (hrest : Resumes depth rest) (hrest' : Resumes depth rest')
    (h : outlineCharsAll write (depth + 1) vs ++ rest =
      outlineCharsAll write (depth + 1) ws ++ rest') :
    vs = ws ∧ rest = rest' := by
  induction vs generalizing ws with
  | nil =>
    cases ws with
    | nil => exact ⟨rfl, h⟩
    | cons w ws =>
      rw [outlineCharsAll_cons_append] at h
      have hcs : rest = outlineChars write (depth + 1) w ++
          (outlineCharsAll write (depth + 1) ws ++ rest') := h
      rw [hcs] at hrest
      exact absurd hrest (not_resumes_outlineChars (hws w List.mem_cons_self).kind depth _)
  | cons v vs ihvs =>
    cases ws with
    | nil =>
      rw [outlineCharsAll_cons_append] at h
      have hcs : rest' = outlineChars write (depth + 1) v ++
          (outlineCharsAll write (depth + 1) vs ++ rest) := h.symm
      rw [hcs] at hrest'
      exact absurd hrest' (not_resumes_outlineChars (hvs v List.mem_cons_self).kind depth _)
    | cons w ws =>
      rw [outlineCharsAll_cons_append, outlineCharsAll_cons_append] at h
      have hvs' : ∀ v ∈ vs, v.Plain := fun v hv => hvs v (List.mem_cons_of_mem _ hv)
      have hws' : ∀ w ∈ ws, w.Plain := fun w hw => hws w (List.mem_cons_of_mem _ hw)
      obtain ⟨rfl, hmore⟩ := ih v List.mem_cons_self w _ _ (hvs v List.mem_cons_self)
        (hws w List.mem_cons_self) (resumes_outlineCharsAll (fun v hv => (hvs' v hv).kind) hrest)
        (resumes_outlineCharsAll (fun w hw => (hws' w hw).kind) hrest') h
      obtain ⟨rfl, hrests⟩ := ihvs (fun v hv => ih v (List.mem_cons_of_mem _ hv)) hvs' hws' hmore
      exact ⟨rfl, hrests⟩

/-- **A plain view is known from its lines, and so is where they end.** -/
theorem outline_append_inj (hwrite : Json.Inline write) {v w : View} {depth : Nat}
    {rest rest' : List Char} (hv : v.Plain) (hw : w.Plain) (hrest : Resumes depth rest)
    (hrest' : Resumes depth rest')
    (h : outlineChars write depth v ++ rest = outlineChars write depth w ++ rest') :
    v = w ∧ rest = rest' := by
  induction v generalizing w depth rest rest' with
  | step kind title properties children ih =>
    obtain ⟨kind', title', properties', children'⟩ := w
    rw [outlineChars_append, outlineChars_append] at h
    obtain ⟨hkind, htitle, hproperties, hinside⟩ :=
      heading_append_inj hwrite hv.kind hw.kind hv.keys hw.keys (List.append_cancel_left h)
    obtain ⟨hchildren, hrest⟩ := outlineAll_append_inj
      (fun c hc d _ _ hc' hd hrest hrest' => ih c hc hc' hd hrest hrest') hv.inside hw.inside hrest
      hrest' hinside
    obtain rfl : kind = kind' := hkind
    obtain rfl : title = title' := htitle
    obtain rfl : properties = properties' := hproperties
    obtain rfl : children = children' := hchildren
    exact ⟨rfl, hrest⟩

theorem outlineWith_inj (hwrite : Json.Inline write) {v w : View} (hv : v.Plain) (hw : w.Plain)
    (h : v.outlineWith write = w.outlineWith write) : v = w := by
  have hchars := congrArg String.toList h
  rw [toList_outlineWith, toList_outlineWith, ← List.append_nil (outlineChars write 0 v),
    ← List.append_nil (outlineChars write 0 w)] at hchars
  obtain ⟨heq, -⟩ := outline_append_inj hwrite hv hw (.inl rfl) (.inl rfl) hchars
  exact heq

theorem words_inj (hwrite : Json.Inline write) {v w : View} (hv : v.Plain) (hw : w.Plain)
    (h : v.words write = w.words write) :
    v.kind = w.kind ∧ v.title = w.title ∧ v.properties = w.properties := by
  have hchars := congrArg (fun s : String => s.toList ++ ['\n']) h
  obtain ⟨hkind, htitle, hproperties, -⟩ :=
    heading_append_inj hwrite hv.kind hw.kind hv.keys hw.keys hchars
  exact ⟨hkind, htitle, hproperties⟩

/-- **A line alone says what its widget is and at which level**, but for what is inside. -/
theorem LineOf.inj (hwrite : Json.Inline write) {v w : View} {m n : Nat} {line : String}
    (hv : v.Plain) (hw : w.Plain) (h : LineOf write v m line) (h' : LineOf write w n line) :
    m = n ∧ v.kind = w.kind ∧ v.title = w.title ∧ v.properties = w.properties := by
  have hindented {u : View} {k : Nat} (hu : u.Plain) (h : LineOf write u k line) :
      Indented (2 * k) line.toList := by
    obtain ⟨c, cs, hcs, hc⟩ := exists_head_heading write u.title u.properties hu.kind
    exact ⟨c, cs, hc, by rw [h.indented, words, hcs]⟩
  have hlevel : m = n := Nat.mul_left_cancel Nat.two_pos
    ((hindented hv h).width_eq (hindented hw h'))
  subst hlevel
  have hwords : v.words write = w.words write :=
    String.toList_inj.mp (List.append_cancel_left (h.indented.symm.trans h'.indented))
  exact ⟨rfl, words_inj hwrite hv hw hwords⟩

end ViewTree.View
