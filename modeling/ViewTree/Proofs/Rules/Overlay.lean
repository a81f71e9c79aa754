import ViewTree.Proofs.Rules.Assignment

/-!
# Assignments on top of a file

> The rules are those of the file with the assignments laid over them, or else what is told is the
> first thing that is wrong, with the file or with an assignment.

**Whether** there are rules is asked of every part by itself: what is wrong with the file, and what
with each assignment (`errors`). There are rules if nothing is, and reading the parts one after the
other stops at the first that is wrong (`fault?_resolveWith`). So the file is in front of the
assignments, whatever they are.

**Which** rules there are is asked of every name by itself: behind the last assignment to a name
nothing changes what is there (`get?_assign_of_forall_ne`), so that one counts, and where there is
none, what the file says (`overlays_assign`).
-/

set_option autoImplicit false

namespace ViewTree

/-- What is wrong with a result, if anything is. -/
def fault? {ε α : Type} : Except ε α → Option ε
  | .error e => some e
  | .ok _ => none

theorem fault?_eq_some_iff {ε α : Type} {x : Except ε α} {e : ε} :
    fault? x = some e ↔ x = .error e := by
  cases x with
  | error other => rw [fault?, Option.some_inj, Except.error.injEq]
  | ok a => exact iff_of_false nofun nofun

theorem fault?_eq_none_iff {ε α : Type} {x : Except ε α} : fault? x = none ↔ ∃ a, x = .ok a := by
  cases x with
  | error e => exact iff_of_false nofun nofun
  | ok a => exact iff_of_true rfl ⟨a, rfl⟩

namespace RuleValues

/-! ## What is wrong -/

/-- **All that is wrong with rules**: with their file, if there is one, then with the assignments,
in order. -/
def errors (read : Reader) (files : Files) (file : Option String) (assignments : List String) :
    List Error :=
  (file.bind fun file => fault? (ofFile read files file)).toList ++
    assignments.filterMap fun raw => (fault? (Assignment.parse raw)).map .assignment

theorem fault?_assign (values : RuleValues) (assignments : List String) :
    fault? (assign values assignments) =
      (assignments.filterMap fun raw =>
        (fault? (Assignment.parse raw)).map Error.assignment).head? := by
  induction assignments generalizing values with
  | nil => rfl
  | cons raw rest ih =>
    rw [assign, List.filterMap_cons]
    cases Assignment.parse raw with
    | error error => rfl
    | ok a => exact ih (values.insert a.name a.value)

/-- The first thing that is wrong with rules is what resolving them reports. -/
theorem fault?_resolveWith (read : Reader) (files : Files) (file : Option String)
    (assignments : List String) :
    fault? (resolveWith read files file assignments) =
      (errors read files file assignments).head? := by
  cases file with
  | none => exact fault?_assign .empty assignments
  | some file =>
    rw [resolveWith, errors, Option.bind_some]
    cases ofFile read files file with
    | error error => rfl
    | ok base => exact fault?_assign base assignments

/-! ## The file -/

/-- What is below the assignments: the rules of the file, or none where no file is given. -/
inductive Below (read : Reader) (files : Files) : Option String → RuleValues → Prop
  | nothing : Below read files none .empty
  | file {file text : String} {values : RuleValues} : files file = .ok text →
    read text = .ok values → Below read files (some file) values

theorem ofFile_eq_ok_iff {read : Reader} {files : Files} {file : String} {values : RuleValues} :
    ofFile read files file = .ok values ↔
      ∃ text, files file = .ok text ∧ read text = .ok values := by
  rw [ofFile]
  cases files file with
  | error reason => exact iff_of_false nofun fun ⟨_, h, _⟩ => nomatch h
  | ok text =>
    simp only [Except.ok.injEq, exists_eq_left', mapError_eq_ok_iff]

theorem ofFile_eq_error_iff {read : Reader} {files : Files} {file : String} {error : Error} :
    ofFile read files file = .error error ↔
      (∃ reason, files file = .error reason ∧ .unreadable file reason = error) ∨
        ∃ text reason, files file = .ok text ∧ read text = .error reason ∧
          .unparsable file reason = error := by
  rw [ofFile]
  cases files file with
  | error reason => simp
  | ok text =>
    cases htext : read text with
    | error reason => simp [htext, Except.mapError]
    | ok found => simp [htext, Except.mapError]

theorem below_some_iff {read : Reader} {files : Files} {file : String} {values : RuleValues} :
    Below read files (some file) values ↔ ofFile read files file = .ok values := by
  rw [ofFile_eq_ok_iff]
  constructor
  · rintro (_ | ⟨htext, hvalues⟩)
    exact ⟨_, htext, hvalues⟩
  · rintro ⟨text, htext, hvalues⟩
    exact .file htext hvalues

theorem exists_below_iff {read : Reader} {files : Files} {file : Option String} :
    (∃ base, Below read files file base) ↔
      (file.bind fun file => fault? (ofFile read files file)) = none := by
  cases file with
  | none => exact iff_of_true ⟨.empty, .nothing⟩ rfl
  | some file => rw [Option.bind_some, fault?_eq_none_iff, exists_congr fun _ => below_some_iff]

theorem resolveWith_of_below {read : Reader} {files : Files} {file : Option String}
    {base : RuleValues} (h : Below read files file base) (assignments : List String) :
    resolveWith read files file assignments = assign base assignments := by
  cases file with
  | none =>
    cases h
    exact resolveWith_none read files assignments
  | some file =>
    rw [resolveWith_some, below_some_iff.mp h]
    rfl

/-! ## Whether there are rules -/

theorem exists_assign_iff {values : RuleValues} {assignments : List String} :
    (∃ result, assign values assignments = .ok result) ↔
      ∀ raw ∈ assignments, ∃ a, Assignment.parse raw = .ok a := by
  rw [← fault?_eq_none_iff, fault?_assign, List.head?_eq_none_iff, List.filterMap_eq_nil_iff]
  exact forall₂_congr fun _ _ => Option.map_eq_none_iff.trans fault?_eq_none_iff

/-- **There are rules if and only if nothing is wrong** with the file and with any assignment. -/
theorem exists_resolveWith_iff {read : Reader} {files : Files} {file : Option String}
    {assignments : List String} :
    (∃ values, resolveWith read files file assignments = .ok values) ↔
      (∃ base, Below read files file base) ∧
        ∀ raw ∈ assignments, ∃ a, Assignment.parse raw = .ok a := by
  constructor
  · rintro ⟨values, h⟩
    have hnothing := fault?_eq_none_iff.mpr ⟨values, h⟩
    rw [fault?_resolveWith, List.head?_eq_none_iff, errors, List.append_eq_nil_iff,
      Option.toList_eq_nil_iff] at hnothing
    obtain ⟨base, hbase⟩ := exists_below_iff.mpr hnothing.1
    rw [resolveWith_of_below hbase] at h
    exact ⟨⟨base, hbase⟩, exists_assign_iff.mp ⟨values, h⟩⟩
  · rintro ⟨⟨base, hbase⟩, hassignments⟩
    rw [resolveWith_of_below hbase]
    exact exists_assign_iff.mpr hassignments

/-- **What is told**: what is wrong with the file, whatever the assignments are, or else with the
first text that is no assignment. -/
inductive Tells (read : Reader) (files : Files) : Option String → List String → Error → Prop
  | unreadable {file reason : String} (assignments : List String) :
    files file = .error reason → Tells read files (some file) assignments (.unreadable file reason)
  | unparsable {file text reason : String} (assignments : List String) : files file = .ok text →
    read text = .error reason → Tells read files (some file) assignments (.unparsable file reason)
  | assignment {file : Option String} {base : RuleValues} {before : List String} {raw : String}
    {after : List String} {e : Assignment.Error} : Below read files file base →
    (∀ earlier ∈ before, ∃ a, Assignment.parse earlier = .ok a) →
    Assignment.parse raw = .error e → Tells read files file (before ++ raw :: after) (.assignment e)

/-- **The first thing that is wrong is told.** -/
theorem resolveWith_eq_error_iff {read : Reader} {files : Files} {file : Option String}
    {assignments : List String} {error : Error} :
    resolveWith read files file assignments = .error error ↔
      Tells read files file assignments error := by
  rw [← fault?_eq_some_iff, fault?_resolveWith, errors, List.head?_append, Option.or_eq_some_iff,
    Option.head?_toList, List.head?_filterMap, List.findSome?_eq_some_iff, ← exists_below_iff]
  -- Now it is the file's fault, or else there is nothing wrong with it and it is the first text's.
  constructor
  · rintro (hfile | ⟨⟨base, hbase⟩, before, raw, after, rfl, hraw, hbefore⟩)
    · cases file with
      | none => cases hfile
      | some file =>
        rcases ofFile_eq_error_iff.mp (fault?_eq_some_iff.mp hfile) with
          ⟨reason, hreason, rfl⟩ | ⟨text, reason, htext, hread, rfl⟩
        · exact .unreadable assignments hreason
        · exact .unparsable assignments htext hread
    · obtain ⟨e, he, rfl⟩ := Option.map_eq_some_iff.mp hraw
      refine .assignment hbase (fun earlier h => ?_) (fault?_eq_some_iff.mp he)
      exact fault?_eq_none_iff.mp (Option.map_eq_none_iff.mp (hbefore earlier h))
  · intro h
    cases h with
    | unreadable _ hreason =>
      exact .inl (fault?_eq_some_iff.mpr (ofFile_eq_error_iff.mpr (.inl ⟨_, hreason, rfl⟩)))
    | unparsable _ htext hread =>
      exact .inl (fault?_eq_some_iff.mpr (ofFile_eq_error_iff.mpr (.inr ⟨_, _, htext, hread, rfl⟩)))
    | assignment hbase hbefore hraw =>
      refine .inr ⟨⟨_, hbase⟩, _, _, _, rfl, ?_, fun earlier h => ?_⟩
      · rw [fault?_eq_some_iff.mpr hraw, Option.map_some]
      · rw [fault?_eq_none_iff.mpr (hbefore earlier h), Option.map_none]

/-! ## Which rules there are -/

/-- The last assignment to a name gives it a value. -/
def Assigns (assignments : List String) (name : String) (value : Bool) : Prop :=
  ∃ before raw after, assignments = before ++ raw :: after ∧
    Assignment.parse raw = .ok ⟨name, value⟩ ∧ ∀ later ∈ after, Assignment.nameOf later ≠ name

theorem get?_of_forall_ne {base result : RuleValues} {assignments : List String} {name : String}
    (h : assign base assignments = .ok result)
    (hname : ∀ raw ∈ assignments, Assignment.nameOf raw ≠ name) :
    result.get? name = base.get? name :=
  get?_assign_of_forall_ne h fun raw hraw _ ha =>
    Assignment.name_of_parse ha ▸ hname raw hraw

theorem get?_of_assigns {base result : RuleValues} {assignments : List String} {name : String}
    {value : Bool} (h : assign base assignments = .ok result)
    (hassigns : Assigns assignments name value) : result.get? name = some value := by
  obtain ⟨before, raw, after, rfl, hraw, hafter⟩ := hassigns
  -- What stands in front is all assignments, so there is something that this one is put on.
  obtain ⟨middle, hmiddle⟩ := exists_assign_iff.mpr fun other hother =>
    exists_assign_iff.mp ⟨result, h⟩ other (List.mem_append_left _ hother)
  rw [assign_append, hmiddle] at h
  have hrest : assign (middle.insert name value) after = .ok result :=
    (assign_cons_ok hraw middle after).symm.trans h
  rw [get?_of_forall_ne hrest hafter, Dictionary.get?_insert_self]

/-- A name that occurs has a last assignment. -/
theorem exists_last (name : String) :
    ∀ assignments : List String, (∀ raw ∈ assignments, Assignment.nameOf raw ≠ name) ∨
      ∃ before raw after, assignments = before ++ raw :: after ∧
        Assignment.nameOf raw = name ∧ ∀ later ∈ after, Assignment.nameOf later ≠ name
  | [] => .inl nofun
  | raw :: rest => by
    rcases exists_last name rest with hrest | ⟨before, other, after, rfl, hother, hafter⟩
    · by_cases hraw : Assignment.nameOf raw = name
      · exact .inr ⟨[], raw, rest, rfl, hraw, hrest⟩
      · exact .inl (List.forall_mem_cons.mpr ⟨hraw, hrest⟩)
    · exact .inr ⟨raw :: before, other, after, rfl, hother, hafter⟩

/-- **The last assignment to a name counts**, and where there is none, what is below. -/
theorem overlays_assign {base result : RuleValues} {assignments : List String}
    (h : assign base assignments = .ok result) (name : String) (value : Bool) :
    result.get? name = some value ↔
      Assigns assignments name value ∨
        (∀ raw ∈ assignments, Assignment.nameOf raw ≠ name) ∧ base.get? name = some value := by
  rcases exists_last name assignments with hnone | ⟨before, raw, after, rfl, hname, hafter⟩
  · rw [get?_of_forall_ne h hnone]
    constructor
    · exact fun hvalue => .inr ⟨hnone, hvalue⟩
    · rintro (⟨before, raw, after, rfl, hraw, -⟩ | ⟨-, hvalue⟩)
      · exact absurd (Assignment.name_of_parse hraw).symm (hnone raw (by simp))
      · exact hvalue
  · obtain ⟨a, ha⟩ := exists_assign_iff.mp ⟨result, h⟩ raw (by simp)
    obtain rfl : a.name = name := (Assignment.name_of_parse ha).trans hname
    have hlast : Assigns (before ++ raw :: after) a.name a.value :=
      ⟨before, raw, after, rfl, ha, hafter⟩
    constructor
    · intro hvalue
      obtain rfl := Option.some.inj ((get?_of_assigns h hlast).symm.trans hvalue)
      exact .inl hlast
    · rintro (hassigns | ⟨hnone, -⟩)
      · exact get?_of_assigns h hassigns
      · exact absurd hname (hnone raw (by simp))

/-- **Rules are their file with the assignments laid over it, or the first thing that is wrong.**
There are rules if and only if the file, if there is one, can be read and holds rules, and every
text is an assignment. Then a name has the value of the last assignment to it, or else the value
that the file gives it, or else none. Where there are no rules, what is told is what is wrong with
the file, whatever the assignments are, or else with the first text that is no assignment. Laying
some of the assignments over the file and then the others is laying all of them over it, and
neighbours with different names can trade places. All of this is whatever the reader of the file
makes of a text. -/
theorem resolve_overlays (read : Reader) (files : Files) (file : Option String)
    (assignments : List String) :
    ((∃ values, resolveWith read files file assignments = .ok values) ↔
      (∃ base, Below read files file base) ∧
        ∀ raw ∈ assignments, ∃ a, Assignment.parse raw = .ok a) ∧
    (∀ values, resolveWith read files file assignments = .ok values →
      ∃ base, Below read files file base ∧ ∀ name value, values.get? name = some value ↔
        Assigns assignments name value ∨
          (∀ raw ∈ assignments, Assignment.nameOf raw ≠ name) ∧ base.get? name = some value) ∧
    (∀ error, resolveWith read files file assignments = .error error ↔
      Tells read files file assignments error) ∧
    (∀ first second, assignments = first ++ second → resolveWith read files file assignments =
      resolveWith read files file first >>= fun values => assign values second) ∧
    ∀ before raw other after a b, assignments = before ++ raw :: other :: after →
      Assignment.parse raw = .ok a → Assignment.parse other = .ok b →
      Assignment.nameOf raw ≠ Assignment.nameOf other →
      resolveWith read files file assignments =
        resolveWith read files file (before ++ other :: raw :: after) := by
  refine ⟨exists_resolveWith_iff, fun values h => ?_, fun error => resolveWith_eq_error_iff, ?_, ?_⟩
  · obtain ⟨⟨base, hbase⟩, -⟩ := exists_resolveWith_iff.mp ⟨values, h⟩
    rw [resolveWith_of_below hbase] at h
    exact ⟨base, hbase, overlays_assign h⟩
  · rintro first second rfl
    exact resolveWith_append read files file first second
  · rintro before raw other after a b rfl ha hb hne
    rw [← Assignment.name_of_parse ha, ← Assignment.name_of_parse hb] at hne
    rw [resolveWith_append, resolveWith_append]
    exact bind_congr fun values => assign_swap ha hb hne values after

/-- A file that sets three rules. -/
def nightFiles : Files := fun file =>
  if file = "rules.toml" then .ok "[rules]\nnight = false\nwide = true\nquiet = true\n"
  else .error "no such file"

/-- Three assignments, two of them to one name. -/
def nightTexts : List String := ["wide=false", " night = false", "night=true"]

/-- One name has its value from the last of its assignments, one from the file, and one has none. -/
theorem resolve_overlays_night :
    (∃ base, Below ofText nightFiles (some "rules.toml") base) ∧
      (∀ raw ∈ nightTexts, ∃ a, Assignment.parse raw = .ok a) ∧
      (∃ values, resolve nightFiles (some "rules.toml") nightTexts = .ok values ∧
        values.get? "night" = some true ∧ values.get? "quiet" = some true ∧
        values.get? "late" = none) ∧
      resolve nightFiles (some "rules.toml") nightTexts =
        resolve nightFiles (some "rules.toml") [" night = false", "wide=false", "night=true"] := by
  obtain ⟨hok, hget, -, -, hswap⟩ :=
    resolve_overlays ofText nightFiles (some "rules.toml") nightTexts
  have hbelow : Below ofText nightFiles (some "rules.toml")
      (.ofList [("night", false), ("wide", true), ("quiet", true)]) := .file rfl rfl
  have htexts : ∀ raw ∈ nightTexts, ∃ a, Assignment.parse raw = .ok a := by
    simp only [nightTexts, List.forall_mem_cons, List.not_mem_nil, false_implies, implies_true]
    exact ⟨⟨_, rfl⟩, ⟨_, rfl⟩, ⟨_, rfl⟩, trivial⟩
  obtain ⟨values, hvalues⟩ := hok.mpr ⟨⟨_, hbelow⟩, htexts⟩
  obtain ⟨base, hbase, hvalue⟩ := hget values hvalues
  obtain rfl := Except.ok.inj ((below_some_iff.mp hbase).symm.trans (below_some_iff.mp hbelow))
  have hlast : Assigns nightTexts "night" true :=
    ⟨["wide=false", " night = false"], "night=true", [], rfl, rfl, nofun⟩
  have hquiet : ∀ raw ∈ nightTexts, Assignment.nameOf raw ≠ "quiet" := by decide
  have hlate : values.get? "late" = none := by
    refine Option.eq_none_iff_forall_ne_some.mpr fun value hlate => ?_
    rcases (hvalue _ _).mp hlate with ⟨before, raw, after, hsplit, hraw, -⟩ | ⟨-, hfile⟩
    · have hnames : ∀ raw ∈ nightTexts, Assignment.nameOf raw ≠ "late" := by decide
      exact hnames raw (by rw [hsplit]; simp) (Assignment.name_of_parse hraw).symm
    · exact absurd hfile (by cases value <;> decide)
  exact ⟨⟨_, hbelow⟩, htexts,
    ⟨values, hvalues, (hvalue _ _).mpr (.inl hlast), (hvalue _ _).mpr (.inr ⟨hquiet, rfl⟩), hlate⟩,
    hswap [] "wide=false" " night = false" ["night=true"] _ _ rfl rfl rfl (by decide)⟩

end RuleValues

end ViewTree
