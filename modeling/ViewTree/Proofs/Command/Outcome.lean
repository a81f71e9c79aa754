import ViewTree.Proofs.Command.Stages
import ViewTree.Proofs.Json.Writing

/-!
# What a run leaves behind

A run that shows a document answers in one of two ways. Either some stage fails: then there is
nothing on the output, and the errors have the complaint of the first stage that fails and nothing
else. Or none fails: then there are no errors, and the output has what is shown. The format says how
a complaint or a picture is written, and a quiet run leaves out complaints and notices, never
pictures; so in JSON format the output of a run that succeeds is always one JSON value.

Two commands show a document, and they differ in the **picture** alone: one describes the component,
the other realizes it. That they fail alike is then no coincidence to be checked: up to the
picture they are one run (`answer_request`).

All of this is so whatever the tools are. What they read they read, and what they say and write
stands in the answer as it is. That a text is one JSON value is said of the text, by reading it
(`Json.Spells`), and follows where the tools write JSON (`Tools.WritesJson`). A description can be
nested deeper than a reader of documents goes, and is a JSON value all the same.
-/

set_option autoImplicit false

namespace ViewTree.Command

open Json (Spells)

/-- **Tools write JSON** when each of their lines is one value, the one that they were given. -/
structure Tools.WritesJson (tools : Tools) : Prop where
  compact : ∀ j, Spells (tools.compact j ++ "\n") j
  pretty : ∀ j, Spells (tools.pretty j ++ "\n") j

/-! ## Pictures -/

/-- The commands that show a document. -/
inductive Verb where
  | inspect
  | render

namespace Verb

/-- The request to show a document. -/
def request (document : String) (rules : RuleSource) : Verb → Request
  | .inspect => .inspect document rules
  | .render => .render document rules

/-- **What is shown of a component**, as a JSON value and as an outline: a description of it, or the
view that it is realized as, if there is one. -/
def picture? (tools : Tools) (component : Component Unit View) : Verb → Option (Json × String)
  | .inspect => some (component.describe, component.inspectionWith tools.compact)
  | .render =>
    (component.realize.result ()).map fun view => (view.toJson, view.outlineWith tools.compact)

/-- What is said where there is nothing to show. -/
def notice (document : String) : Verb → String
  | .inspect => "document '" ++ document ++ "' compiled to nothing"
  | .render => "document '" ++ document ++ "' rendered nothing"

/-- A picture is never null. -/
theorem picture?_ne_null {verb : Verb} {tools : Tools} {component : Component Unit View}
    {shown : Json × String} (h : verb.picture? tools component = some shown) :
    shown.1 ≠ .null := by
  cases verb with
  | inspect =>
    obtain rfl := Option.some.inj h
    cases component <;> simp [Component.describe]
  | render =>
    obtain ⟨view, -, rfl⟩ := Option.map_eq_some_iff.mp h
    obtain ⟨kind, title, properties, children⟩ := view
    simp [View.toJson]

end Verb

section

variable (tools : Tools) (options : Options) (document : String)

/-- The output of a run that has come so far as to show something, or nothing. -/
def outputText (notice : String) : Option (Json × String) → String
  | none => nothingText options notice
  | some shown =>
    match options.format with
    | .text => shown.2
    | .json => tools.pretty shown.1 ++ "\n"

theorem inspectText_eq (compiled : Compiled) :
    inspectText tools options document compiled =
      outputText tools options (Verb.inspect.notice document)
        (compiled.bind (Verb.inspect.picture? tools)) := by
  cases compiled <;> rfl

theorem renderText_eq (compiled : Compiled) :
    renderText tools options document (realizeCompiled compiled).value =
      outputText tools options (Verb.render.notice document)
        (compiled.bind (Verb.render.picture? tools)) := by
  cases compiled with
  | none => rfl
  | some component =>
    show renderText tools options document (component.realize.result ()) =
      outputText tools options _ ((component.realize.result ()).map _)
    cases component.realize.result () <;> rfl

/-- The answer to a failure. Events that are told go to the errors as well. -/
def refusal (events : List Event) (message : String) : Outcome :=
  ⟨1, "", eventText tools options events ++ errorText tools options message⟩

/-- An answer that is made from what was loaded. -/
theorem conclude_eq {result : Logged (Except Failure String)} {loaded : Except Failure Compiled}
    {answer : Compiled → String} (h : result.value = loaded.map answer) :
    ∃ events, conclude tools options result =
      match loaded with
      | .error failure => refusal tools options events (failure.message tools)
      | .ok compiled => ⟨0, answer compiled, eventText tools options events⟩ := by
  refine ⟨result.events, ?_⟩
  rw [conclude, h]
  cases loaded <;> rfl

variable (files : Files) (rules : RuleSource) (verb : Verb)

/-- **Both commands load a document and show it.** -/
theorem answer_request :
    ∃ events, answer tools files options (verb.request document rules) =
      match (load tools files document rules).value with
      | .error failure => refusal tools options events (failure.message tools)
      | .ok compiled =>
        ⟨0, outputText tools options (verb.notice document) (compiled.bind (verb.picture? tools)),
          eventText tools options events⟩ := by
  cases verb with
  | inspect =>
    refine conclude_eq tools options ?_
    rw [Logged.value_bind]
    cases (load tools files document rules).value with
    | error failure => rfl
    | ok compiled => exact congrArg Except.ok (inspectText_eq tools options document compiled)
  | render =>
    refine conclude_eq tools options ?_
    rw [Logged.value_bind]
    cases (load tools files document rules).value with
    | error failure => rfl
    | ok compiled => exact congrArg Except.ok (renderText_eq tools options document compiled)

end

/-! ## The two answers -/

/-- **A run that fails** leaves behind a message, and nothing else. -/
structure Refuses (tools : Tools) (options : Options) (message : String) (left : Outcome) :
    Prop where
  status : left.status = 1
  output : left.output = ""
  quiet : options.quiet = true → left.errors = ""
  text : options.quiet = false → options.format = .text → left.errors = message ++ "\n"
  json : options.quiet = false → options.format = .json →
    left.errors = tools.compact (.obj [("error", .str message)]) ++ "\n"
  /-- In JSON format there is one value. -/
  value : options.quiet = false → options.format = .json → tools.WritesJson →
    ∀ j, Spells left.errors j ↔ j = .obj [("error", .str message)]

/-- **A run that succeeds** leaves behind a picture, or what stands for none. -/
structure Shows (tools : Tools) (options : Options) (notice : String)
    (shown? : Option (Json × String)) (left : Outcome) : Prop where
  status : left.status = 0
  errors : left.errors = ""
  text : options.format = .text → left.output =
    match shown? with
    | some shown => shown.2
    | none => if options.quiet then "" else notice ++ "\n"
  json : options.format = .json → left.output =
    match shown? with
    | some shown => tools.pretty shown.1 ++ "\n"
    | none => "null\n"
  /-- In JSON format there is one value, also when the run is quiet. -/
  value : options.format = .json → tools.WritesJson →
    ∀ j, Spells left.output j ↔ j = (shown?.map Prod.fst).getD .null
  null_iff : options.format = .json → tools.WritesJson →
    (Spells left.output .null ↔ shown? = none)

theorem spells_iff {text : String} {j : Json} (h : Spells text j) (i : Json) :
    Spells text i ↔ i = j :=
  ⟨fun hi => hi.unique h, fun hi => hi ▸ h⟩

variable {tools : Tools}

theorem spells_outputText (hwrites : tools.WritesJson) {options : Options}
    (hformat : options.format = .json) (notice : String) (shown? : Option (Json × String)) :
    Spells (outputText tools options notice shown?) ((shown?.map Prod.fst).getD .null) := by
  cases shown? with
  | none =>
    rw [outputText, nothingText, hformat]
    exact Json.spells_text .null
  | some shown =>
    simp only [outputText, hformat]
    exact hwrites.pretty shown.1

theorem refuses_errorText (options : Options) (message : String) :
    Refuses tools options message ⟨1, "", errorText tools options message⟩ := by
  refine ⟨rfl, rfl, ?_, ?_, ?_, ?_⟩
  · intro hquiet
    simp [errorText, hquiet]
  · intro hquiet hformat
    simp [errorText, hquiet, hformat]
  · intro hquiet hformat
    simp [errorText, hquiet, hformat]
  · intro hquiet hformat hwrites
    simp only [errorText, hquiet, hformat]
    exact spells_iff (hwrites.compact _)

theorem shows_outputText (options : Options) (notice : String) (shown? : Option (Json × String))
    (hshown : ∀ shown, shown? = some shown → shown.1 ≠ .null) :
    Shows tools options notice shown? ⟨0, outputText tools options notice shown?, ""⟩ := by
  refine ⟨rfl, rfl, ?_, ?_, fun hformat hwrites => ?_, fun hformat hwrites => ?_⟩
  · intro hformat
    cases shown? <;> simp [outputText, nothingText, hformat]
  · intro hformat
    cases shown? <;> simp [outputText, nothingText, hformat]
  · exact spells_iff (spells_outputText hwrites hformat notice shown?)
  · rw [spells_iff (spells_outputText hwrites hformat notice shown?)]
    cases shown? with
    | none => simp
    | some shown => simpa using (hshown shown rfl).symm

/-! ## The outcome -/

/-- What a command shows of a document, if no stage fails. -/
def shown? (tools : Tools) (files : Files) (document : String) (rules : RuleSource) (verb : Verb) :
    Option (Json × String) :=
  (compiled? tools files document rules).join.bind (verb.picture? tools)

/-- A run without told events is one of the two answers, by the first stage that fails. -/
theorem answer_eq (tools : Tools) (files : Files) {options : Options}
    (hverbose : options.verbose = false) (verb : Verb) (document : String) (rules : RuleSource) :
    answer tools files options (verb.request document rules) =
      match complaint? tools files document rules with
      | some message => ⟨1, "", errorText tools options message⟩
      | none =>
        ⟨0, outputText tools options (verb.notice document)
          (shown? tools files document rules verb), ""⟩ := by
  -- Which events there are does not matter: without being asked to, a run tells none.
  obtain ⟨events, hanswer⟩ := answer_request tools options document files rules verb
  have htold : eventText tools options events = "" := by
    rw [eventText, hverbose]
    rfl
  simp only [hanswer, refusal, htold, ← said_load, shown?, ← toOption_load]
  cases (load tools files document rules).value with
  | error failure => rfl
  | ok compiled => rfl

/-- What a command line leaves behind is the answer to what it asks for, with the tools at hand. -/
theorem run_eq_answer (files : Files) {arguments : List String} {options : Options}
    {request : Request} (h : Invocation.ofArguments arguments = .ok (.run options request)) :
    run files arguments = answer .own files options request := by
  rw [run, h]

example : Invocation.ofArguments
    ["inspect", "empty.json", "--output=json", "--set", "a", "--rules", "r.toml"] =
      .ok (.run ⟨.json, false, false⟩ (.inspect "empty.json" ⟨some "r.toml", ["a"]⟩)) := by decide

/-- **What a run leaves behind.** A run that shows a document, with either command, has status 1
when one of the stages fails and 0 otherwise. When some fail, it says what the first of them
complains of; when none fails, there is a component, or nothing, and that is shown. With the other
command it has the same status and the same errors. So it is whatever the tools are, and with those
that are at hand it is what any command line leaves behind that asks for it. -/
theorem run_shows (tools : Tools) (files : Files) (options : Options) (verb : Verb)
    (document : String) (rules : RuleSource) (hverbose : options.verbose = false) :
    let left := answer tools files options (verb.request document rules)
    (left.status = 1 ↔
      ∃ stage : Stage, (stage.complaint? tools files document rules).isSome) ∧
    (left.status = 0 ↔
      ∀ stage : Stage, stage.complaint? tools files document rules = none) ∧
    (∀ message, complaint? tools files document rules = some message →
      Refuses tools options message left) ∧
    (complaint? tools files document rules = none →
      (compiled? tools files document rules).isSome ∧
      Shows tools options (verb.notice document) (shown? tools files document rules verb) left) ∧
    (∀ other : Verb,
      (answer tools files options (other.request document rules)).status = left.status ∧
        (answer tools files options (other.request document rules)).errors = left.errors) ∧
    (tools = .own → ∀ arguments,
      Invocation.ofArguments arguments = .ok (.run options (verb.request document rules)) →
      run files arguments = left) := by
  intro left
  have hleft : left = _ := answer_eq tools files hverbose verb document rules
  have hnone := complaint?_eq_none_iff tools files document rules
  have hsome : (∃ stage : Stage, (stage.complaint? tools files document rules).isSome) ↔
      (complaint? tools files document rules).isSome := by
    simp only [Option.isSome_iff_ne_none, Ne, hnone, not_forall]
  have hcompiled : complaint? tools files document rules = none →
      (compiled? tools files document rules).isSome := by
    rw [← said_load, ← toOption_load]
    cases (load tools files document rules).value <;> simp [said, fault?, Except.toOption]
  refine ⟨?_, ?_, ?_, ?_, ?_, ?_⟩
  · rw [hleft, hsome]
    cases complaint? tools files document rules <;> simp
  · rw [hleft, ← hnone]
    cases complaint? tools files document rules <;> simp
  · intro message hmessage
    rw [hleft, hmessage]
    exact refuses_errorText options message
  · intro hmessage
    refine ⟨hcompiled hmessage, ?_⟩
    rw [hleft, hmessage]
    refine shows_outputText options _ _ fun shown hshown => ?_
    obtain ⟨component, -, hpicture⟩ := Option.bind_eq_some_iff.mp hshown
    exact verb.picture?_ne_null hpicture
  · intro other
    rw [hleft, answer_eq tools files hverbose other document rules]
    cases complaint? tools files document rules <;> exact ⟨rfl, rfl⟩
  · rintro rfl arguments harguments
    exact run_eq_answer files harguments

/-- A label that is shown at night. -/
def lamp : Json := .obj [("structure", .obj [("meta", .obj [("text", .str "Hi")]),
  ("rule", .str "night"), ("type", .str "label")])]

/-- An empty document, a label and a file of rules that make it day. -/
def desk : Files := fun name =>
  if name = "empty.json" then .ok ""
  else if name = "lamp.json" then .ok lamp.text
  else if name = "day.toml" then .ok "[rules]\nnight = false\n"
  else .error "No such file or directory (os error 2)"

/-- Tools that read what is on the desk. -/
def clerk : Tools where
  readJson text :=
    if text = lamp.text then .ok lamp
    else .error ⟨.unfinished, "EOF while parsing a value at line 1 column 0"⟩
  compact := Json.text
  pretty := Json.pretty
  readRules text :=
    if text = "[rules]\nnight = false\n" then .ok (.ofList [("night", false)])
    else .error "TOML parse error at line 1, column 1"

theorem clerk_writesJson : clerk.WritesJson := ⟨Json.spells_text, Json.spells_pretty⟩

/-- Where the document is empty, the file of rules is missing and an assignment is wrong, only the
first is told. At night the label is shown, and by day it is null, also for a quiet run. -/
theorem run_shows_desk :
    Refuses clerk ⟨.json, false, false⟩
      "error parsing JSON in 'empty.json': EOF while parsing a value at line 1 column 0"
      (answer clerk desk ⟨.json, false, false⟩ (.inspect "empty.json" ⟨some "r.toml", ["a"]⟩)) ∧
    Refuses clerk ⟨.text, false, false⟩ "invalid rule assignment 'a': expected NAME=BOOL"
      (answer clerk desk ⟨.text, false, false⟩ (.render "lamp.json" ⟨some "day.toml", ["a"]⟩)) ∧
    (answer clerk desk ⟨.text, false, false⟩ (.render "lamp.json" ⟨none, ["night=true"]⟩)).output =
      "label \x7btext=\"Hi\"\x7d\n" ∧
    (answer clerk desk ⟨.json, true, false⟩ (.render "lamp.json" ⟨some "day.toml", []⟩)).output =
      "null\n" ∧
    (∀ j, Spells (answer clerk desk ⟨.json, true, false⟩
      (.render "lamp.json" ⟨some "day.toml", []⟩)).output j ↔ j = .null) ∧
    run desk ["--quiet", "render", "lamp.json"] =
      answer .own desk ⟨.text, true, false⟩ (.render "lamp.json" ⟨none, []⟩) := by
  have hshown := (run_shows clerk desk ⟨.text, false, false⟩ .render "lamp.json"
    ⟨none, ["night=true"]⟩ rfl).2.2.2.1 (by decide)
  have hnull := (run_shows clerk desk ⟨.json, true, false⟩ .render "lamp.json"
    ⟨some "day.toml", []⟩ rfl).2.2.2.1 (by decide)
  refine ⟨?_, ?_, hshown.2.text rfl, hnull.2.json rfl, hnull.2.value rfl clerk_writesJson, ?_⟩
  · exact (run_shows clerk desk ⟨.json, false, false⟩ .inspect "empty.json" ⟨some "r.toml", ["a"]⟩
      rfl).2.2.1 _ (by decide)
  · exact (run_shows clerk desk ⟨.text, false, false⟩ .render "lamp.json" ⟨some "day.toml", ["a"]⟩
      rfl).2.2.1 _ (by decide)
  · exact (run_shows .own desk ⟨.text, true, false⟩ .render "lamp.json" ⟨none, []⟩
      rfl).2.2.2.2.2 rfl _ (by decide)

end ViewTree.Command
