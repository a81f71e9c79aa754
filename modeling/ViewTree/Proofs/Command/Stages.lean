import ViewTree.Command.Run
import ViewTree.Proofs.Compile.Run
import ViewTree.Proofs.Render.Standard
import ViewTree.Proofs.Rules.Overlay

/-!
# The stages of a run

A document comes to a component in four stages, and each of them can fail. The program goes through
them one after the other and stops at the first failure, so what the later stages would have said is
never computed. Here every stage is asked **by itself** what it complains of, and the program is
shown to answer with the first complaint (`said_load`).

Two of the stages do not depend on one another: a document may be unreadable and its rules wrong as
well. The other two need something to work on, and where there is nothing they do not fail.
Configuring the rules is itself a sequence, the file and then each assignment; again every part is
asked by itself, and the first that is wrong is reported.

A complaint is the text that a person sees. Where a tool has been asked, its words stand at the end
of it as they are.
-/

set_option autoImplicit false

namespace ViewTree

namespace Command

/-! ## Each stage by itself -/

/-- The stages of a run. -/
inductive Stage where
  | reading
  | parsing
  | configuring
  | compiling

/-- The stages in order. -/
def Stage.all : List Stage := [.reading, .parsing, .configuring, .compiling]

/-- What is said of a text that is no assignment. -/
def assignmentComplaint? (raw : String) : Option String :=
  (fault? (Assignment.parse raw)).map fun error =>
    "invalid rule assignment '" ++ raw ++ "': " ++
      match error.cause with
      | .noEquals => "expected NAME=BOOL"
      | .emptyName => "empty rule name"
      | .notBoolean value => "'" ++ value ++ "' is not true or false"

variable (tools : Tools) (files : Files) (document : String) (rules : RuleSource)

/-- What is said of a file that has no rules. -/
def fileComplaint? (file : String) : Option String :=
  match files file with
  | .error reason => some ("could not read '" ++ file ++ "': " ++ reason)
  | .ok text =>
    (fault? (tools.readRules text)).map fun words => "could not parse '" ++ file ++ "': " ++ words

/-- What is said of a component that cannot be made. -/
def compileComplaint : CompileError → String
  | .missingKey key object => "missing mandatory key '" ++ key ++ "' in " ++ tools.compact object
  | .invalidJson error => "invalid JSON document: " ++ error.words

/-- The value of a document, if its file can be read and holds one. -/
def value? : Option Json :=
  (files document).toOption.bind fun text => (tools.readJson text).toOption

/-- The rule values, if nothing is wrong with them. -/
def ruleValues? : Option RuleValues :=
  (RuleValues.resolveWith tools.readRules files rules.file rules.assignments).toOption

/-- What a document's value compiles to with rules: the standard types are there, and every rule
that has a value is one that always has it. -/
def compiled (values : RuleValues) (value : Json) : Except CompileError Compiled :=
  ((Factory.standardWith Unit values.entries).compile value).outcome ()

/-- **What a stage complains of**, if it fails. A stage that has nothing to work on does not. -/
def Stage.complaint? : Stage → Option String
  | .reading =>
    (fault? (files document)).map fun reason =>
      "error reading file '" ++ document ++ "': " ++ reason
  | .parsing =>
    (files document).toOption.bind fun text => (fault? (tools.readJson text)).map fun error =>
      "error parsing JSON in '" ++ document ++ "': " ++ error.words
  | .configuring =>
    ((rules.file.bind (fileComplaint? tools files)).toList ++
      rules.assignments.filterMap assignmentComplaint?).head?
  | .compiling =>
    (value? tools files document).bind fun value =>
      (ruleValues? tools files rules).bind fun values =>
        (fault? (compiled values value)).map fun error =>
          "error compiling '" ++ document ++ "': " ++ compileComplaint tools error

/-- The complaint of the first stage that fails. -/
def complaint? : Option String := Stage.all.findSome? (Stage.complaint? tools files document rules)

/-- What a document compiles to, if no stage fails. -/
def compiled? : Option Compiled :=
  (value? tools files document).bind fun value =>
    (ruleValues? tools files rules).bind fun values => (compiled values value).toOption

theorem complaint?_eq :
    complaint? tools files document rules =
      (((Stage.reading.complaint? tools files document rules).or
        (Stage.parsing.complaint? tools files document rules)).or
          (Stage.configuring.complaint? tools files document rules)).or
            (Stage.compiling.complaint? tools files document rules) := by
  simp only [complaint?, Stage.all, List.findSome?_cons, List.findSome?_nil]
  cases Stage.reading.complaint? tools files document rules <;>
    cases Stage.parsing.complaint? tools files document rules <;>
      cases Stage.configuring.complaint? tools files document rules <;>
        cases Stage.compiling.complaint? tools files document rules <;> rfl

theorem complaint?_eq_none_iff :
    complaint? tools files document rules = none ↔
      ∀ stage : Stage, stage.complaint? tools files document rules = none := by
  rw [complaint?, List.findSome?_eq_none_iff]
  constructor
  · intro h stage
    exact h stage (by cases stage <;> simp [Stage.all])
  · exact fun h stage _ => h stage

/-! ## The program goes through them -/

/-- What a computation that may fail says of its failure. -/
abbrev said {α : Type} (x : Except Failure α) : Option String :=
  (fault? x).map (Failure.message tools)

/-- A document that cannot be read has failed in the first stage, or else in the second one. -/
theorem said_readDocument :
    said tools (readDocument tools files document) =
      (Stage.reading.complaint? tools files document rules).or
        (Stage.parsing.complaint? tools files document rules) := by
  rw [readDocument]
  cases hfile : files document with
  | error reason =>
    simp only [Stage.complaint?, hfile]
    rfl
  | ok text =>
    simp only [Stage.complaint?, hfile, Except.toOption, Option.bind_some]
    cases tools.readJson text <;> rfl

theorem toOption_readDocument :
    (readDocument tools files document).toOption = value? tools files document := by
  rw [readDocument, value?]
  cases files document with
  | error reason => rfl
  | ok text =>
    simp only [Except.toOption, Option.bind_some]
    cases tools.readJson text <;> rfl

theorem message_ofFile (file : String) :
    (fault? (RuleValues.ofFile tools.readRules files file)).map RuleValues.Error.message =
      fileComplaint? tools files file := by
  rw [RuleValues.ofFile, fileComplaint?]
  cases files file with
  | error reason => rfl
  | ok text =>
    dsimp only
    cases tools.readRules text <;> rfl

theorem message_assignment (raw : String) :
    ((fault? (Assignment.parse raw)).map RuleValues.Error.assignment).map
      RuleValues.Error.message = assignmentComplaint? raw := by
  rw [Assignment.parse, assignmentComplaint?, Assignment.parse]
  cases Assignment.ofChars raw.toList with
  | ok a => rfl
  | error cause => cases cause <;> rfl

theorem said_readRules :
    said tools (readRules tools files rules) =
      Stage.configuring.complaint? tools files document rules := by
  have hread : said tools (readRules tools files rules) =
      (fault? (RuleValues.resolveWith tools.readRules files rules.file rules.assignments)).map
        RuleValues.Error.message := by
    rw [readRules]
    cases RuleValues.resolveWith tools.readRules files rules.file rules.assignments <;> rfl
  have hassignments : (rules.assignments.filterMap fun raw =>
      (fault? (Assignment.parse raw)).map RuleValues.Error.assignment).map
        RuleValues.Error.message = rules.assignments.filterMap assignmentComplaint? := by
    rw [List.map_filterMap]
    exact List.filterMap_congr fun raw _ => message_assignment raw
  rw [hread, RuleValues.fault?_resolveWith, ← List.head?_map, RuleValues.errors, List.map_append,
    hassignments, Stage.complaint?]
  cases rules.file with
  | none => rfl
  | some file =>
    rw [Option.bind_some, Option.bind_some, ← message_ofFile]
    cases fault? (RuleValues.ofFile tools.readRules files file) <;> rfl

theorem toOption_readRules :
    (readRules tools files rules).toOption = ruleValues? tools files rules := by
  rw [readRules, ruleValues?]
  cases RuleValues.resolveWith tools.readRules files rules.file rules.assignments <;> rfl

theorem value_compileWith (values : RuleValues) (value : Json) :
    (compileWith values document value).value =
      (compiled values value).mapError (.notCompiled document) := by
  rw [compileWith, Logged.value_bind]
  unfold compiled Compilation.outcome Action.result
  show _ = Except.mapError _ (((factoryOf values).compile value).run.run ()).value.1
  generalize (((factoryOf values).compile value).run.run ()).value = ran
  obtain ⟨result, -⟩ := ran
  cases result <;> rfl

/-- **A run stops at the first stage that fails.** -/
theorem said_load :
    said tools (load tools files document rules).value = complaint? tools files document rules := by
  have hread := said_readDocument tools files document rules
  have hvalue := toOption_readDocument tools files document
  have hrules := said_readRules tools files document rules
  have hvalues := toOption_readRules tools files rules
  rw [complaint?_eq, ← hread, ← hrules, load]
  cases hdocument : readDocument tools files document with
  | error failure => rfl
  | ok value =>
    cases hsource : readRules tools files rules with
    | error failure => rfl
    | ok values =>
      -- No stage has failed so far, so the last one has a value and rules to work on.
      rw [hdocument] at hvalue
      rw [hsource] at hvalues
      show said tools (compileWith values document value).value =
        Stage.compiling.complaint? tools files document rules
      rw [value_compileWith, Stage.complaint?, ← hvalue, ← hvalues]
      show _ = (fault? (compiled values value)).map _
      cases compiled values value with
      | ok component => rfl
      | error error => cases error <;> rfl

/-- What a document compiles to, when no stage fails. -/
theorem toOption_load :
    (load tools files document rules).value.toOption = compiled? tools files document rules := by
  rw [compiled?, ← toOption_readDocument, ← toOption_readRules, load]
  cases readDocument tools files document with
  | error failure => rfl
  | ok value =>
    cases readRules tools files rules with
    | error failure => rfl
    | ok values =>
      show (compileWith values document value).value.toOption = (compiled values value).toOption
      rw [value_compileWith]
      cases compiled values value <;> rfl

end Command

end ViewTree
