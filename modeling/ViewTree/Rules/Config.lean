import ViewTree.Dictionary
import ViewTree.Rules.Assignment
import ViewTree.Toml.Reader

/-!
# Rule configuration

What the rules of a document say is configured by a file and by assignments. The file is a TOML text
with a table `rules` of truth values; whatever else it holds does not matter. Assignments come on
top of it, a later one above an earlier one.

The first thing that is wrong is reported, and then there is no configuration at all: the file comes
first, then the assignments in order.

How the text of a file is read is left to a **reader** of such files. It either gives the rules or
says in its own words why not.
-/

set_option autoImplicit false

namespace ViewTree

/-- What a look at files by name gives: the text of one, or the reason why it cannot be read. -/
abbrev Files : Type := String → Except String String

/-- Truth values by rule name. -/
abbrev RuleValues : Type := Dictionary Bool

namespace RuleValues

/-- Why rules cannot be configured. -/
inductive Error where
  /-- The file cannot be read. -/
  | unreadable (file reason : String)
  /-- The file is not a table of rules. -/
  | unparsable (file reason : String)
  /-- A text is no assignment. -/
  | assignment (error : Assignment.Error)

/-- The message about rules that cannot be configured. -/
def Error.message : Error → String
  | .unreadable file reason => "could not read '" ++ file ++ "': " ++ reason
  | .unparsable file reason => "could not parse '" ++ file ++ "': " ++ reason
  | .assignment error => error.message

/-! ## Readers of files -/

/-- A reader of the texts of files: it gives the rules, or says what is wrong. -/
abbrev Reader : Type := String → Except String RuleValues

/-- The truth values in a table, if it holds nothing else. -/
def ofEntries : Toml.Entries → Option (List (String × Bool))
  | [] => some []
  | (name, .bool value) :: rest => (ofEntries rest).map ((name, value) :: ·)
  | _ :: _ => none

/-- The rules of a file's text. A text without the table has no rules. -/
def ofText? (text : String) : Option RuleValues := do
  let root ← Toml.parse text
  match root.lookup "rules" with
  | none => pure .empty
  | some (.table _ entries) => (ofEntries entries).map Dictionary.ofList
  | some _ => none

/-- The words of the reader below, whatever is wrong with a text. -/
def badFile : String := "not a TOML text with a table of rules"

/-- Reads a text with a table of rules. -/
def ofText : Reader := fun text =>
  match ofText? text with
  | some values => .ok values
  | none => .error badFile

/-! ## The overlay -/

/-- The rules of a file. -/
def ofFile (read : Reader) (files : Files) (file : String) : Except Error RuleValues :=
  match files file with
  | .error reason => .error (.unreadable file reason)
  | .ok text => (read text).mapError (.unparsable file)

/-- Puts assignments on top of rules, one after the other. -/
def assign (values : RuleValues) : List String → Except Error RuleValues
  | [] => .ok values
  | raw :: rest =>
    match Assignment.parse raw with
    | .ok a => assign (values.insert a.name a.value) rest
    | .error error => .error (.assignment error)

theorem assign_cons_ok {raw : String} {a : Assignment} (h : Assignment.parse raw = .ok a)
    (values : RuleValues) (rest : List String) :
    assign values (raw :: rest) = assign (values.insert a.name a.value) rest := by
  rw [assign, h]

theorem assign_cons_error {raw : String} {e : Assignment.Error}
    (h : Assignment.parse raw = .error e) (values : RuleValues) (rest : List String) :
    assign values (raw :: rest) = .error (.assignment e) := by
  rw [assign, h]

/-- Where something is assigned, every text is an assignment, and the first one is put below the
others. -/
theorem assign_cons_eq_ok {values result : RuleValues} {raw : String} {rest : List String}
    (h : assign values (raw :: rest) = .ok result) :
    ∃ a, Assignment.parse raw = .ok a ∧
      assign (values.insert a.name a.value) rest = .ok result := by
  cases hraw : Assignment.parse raw with
  | ok a => exact ⟨a, rfl, assign_cons_ok hraw values rest ▸ h⟩
  | error e =>
    rw [assign_cons_error hraw] at h
    cases h

/-- Assigning goes on where it was left. -/
theorem assign_append (values : RuleValues) (first second : List String) :
    assign values (first ++ second) =
      assign values first >>= fun values => assign values second := by
  induction first generalizing values with
  | nil => rfl
  | cons raw rest ih =>
    rw [List.cons_append]
    cases hraw : Assignment.parse raw with
    | ok a => rw [assign_cons_ok hraw, assign_cons_ok hraw, ih]
    | error e =>
      rw [assign_cons_error hraw, assign_cons_error hraw]
      rfl

/-- Assignments to different names can trade places. -/
theorem assign_swap {raw other : String} {a b : Assignment} (ha : Assignment.parse raw = .ok a)
    (hb : Assignment.parse other = .ok b) (h : a.name ≠ b.name) (values : RuleValues)
    (rest : List String) :
    assign values (raw :: other :: rest) = assign values (other :: raw :: rest) := by
  rw [assign_cons_ok ha, assign_cons_ok hb, assign_cons_ok hb, assign_cons_ok ha,
    Dictionary.insert_comm values h]

/-- **Names that are not assigned keep their value.** -/
theorem get?_assign_of_forall_ne {name : String} :
    ∀ {assignments : List String} {values result : RuleValues},
      assign values assignments = .ok result →
      (∀ raw ∈ assignments, ∀ a, Assignment.parse raw = .ok a → a.name ≠ name) →
      result.get? name = values.get? name
  | [], _, _, h, _ => by cases h; rfl
  | raw :: rest, values, result, h, hne => by
    obtain ⟨a, ha, hrest⟩ := assign_cons_eq_ok h
    have hname : name ≠ a.name := (hne raw List.mem_cons_self a ha).symm
    rw [get?_assign_of_forall_ne hrest fun raw hraw => hne raw (List.mem_cons_of_mem _ hraw),
      Dictionary.get?_insert_of_ne values a.value hname]

section

variable (read : Reader) (files : Files)

/-- The rules of a file, if there is one, with assignments on top. -/
def resolveWith (file : Option String) (assignments : List String) : Except Error RuleValues := do
  let base ← match file with
    | some file => ofFile read files file
    | none => .ok .empty
  assign base assignments

theorem resolveWith_none (assignments : List String) :
    resolveWith read files none assignments = assign .empty assignments := rfl

theorem resolveWith_some (file : String) (assignments : List String) :
    resolveWith read files (some file) assignments =
      ofFile read files file >>= fun base => assign base assignments := rfl

/-- Laying assignments over the rules goes on where it was left. -/
theorem resolveWith_append (file : Option String) (first second : List String) :
    resolveWith read files file (first ++ second) =
      resolveWith read files file first >>= fun values => assign values second := by
  cases file with
  | none => exact assign_append .empty first second
  | some file =>
    rw [resolveWith_some, resolveWith_some]
    cases ofFile read files file with
    | error error => rfl
    | ok base => exact assign_append base first second

end

/-- The rules of a TOML file, if there is one, with assignments on top. -/
def resolve (files : Files) (file : Option String) (assignments : List String) :
    Except Error RuleValues :=
  resolveWith ofText files file assignments

end RuleValues

end ViewTree
