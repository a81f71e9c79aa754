import ViewTree.Proofs.Rule.Renaming
import ViewTree.Proofs.Text.Record

/-!
# The text of a rule says its shape

> Two rules have the same diagnostic text exactly when they are the same formula over leaves that
> nobody tells apart.

The text shows every leaf alike, so the shape is all that it can say. That it says the shape is a
matter of where its parts **end**: an operator ends at its own parenthesis, a list of operands at
its own bracket, and between two operands there is a comma. Hence the statement is made with
arbitrary characters behind a text, as for other texts that stand inside a line
(`debug_append_inj`); and no text begins like the end of a list, so an empty list of operands is
not one with an operand in it.
-/

set_option autoImplicit false

namespace ViewTree.Rule

variable {α β : Type}

/-- **The shape of a rule**: the formula with nothing at its leaves. -/
def shape (rule : Rule α) : Rule Unit := rule.map fun _ => ()

/-- What is the same at every leaf of two rules leaves nothing but their shapes. -/
theorem map_const_eq {rule rule' : Rule α} (h : rule.shape = rule'.shape) (leaf : β) :
    (rule.map fun _ => leaf) = rule'.map fun _ => leaf := by
  have hmap := congrArg (Rule.map fun _ => leaf) h
  rwa [shape, shape, map_map, map_map] at hmap

/-! ## The characters -/

theorem debugAll_eq_map (rules : List (Rule α)) : debugAll rules = rules.map debug := by
  induction rules with
  | nil => rfl
  | cons rule rest ih => rw [debugAll, ih, List.map_cons]

/-- The characters of the operands behind the first one, each after its comma. -/
def moreChars (rules : List (Rule α)) : List Char :=
  rules.flatMap fun rule => ',' :: ' ' :: rule.debug.toList

/-- The characters of the operands of an operator, between its brackets. -/
def listChars : List (Rule α) → List Char
  | [] => []
  | rule :: rest => rule.debug.toList ++ moreChars rest

theorem toList_bracketed (rules : List (Rule α)) :
    (Text.bracketed (debugAll rules)).toList = '[' :: (listChars rules ++ [']']) := by
  cases rules with
  | nil => simp [debugAll, listChars, Text.bracketed]
  | cons rule rest =>
    rw [debugAll, Text.toList_bracketed_cons, debugAll_eq_map, List.flatMap_map]
    rfl

theorem debug_and_append (operands : List (Rule α)) (rest : List Char) :
    (debug (.and operands)).toList ++ rest =
      ['A', 'n', 'd', '(', '['] ++ (listChars operands ++ ']' :: ')' :: rest) := by
  rw [debug, Text.toList_applied, toList_bracketed]
  simp

theorem debug_or_append (operands : List (Rule α)) (rest : List Char) :
    (debug (.or operands)).toList ++ rest =
      ['O', 'r', '(', '['] ++ (listChars operands ++ ']' :: ')' :: rest) := by
  rw [debug, Text.toList_applied, toList_bracketed]
  simp

theorem debug_not_append (operand : Rule α) (rest : List Char) :
    (debug (.not operand)).toList ++ rest =
      ['N', 'o', 't', '('] ++ (operand.debug.toList ++ ')' :: rest) := by
  rw [debug, Text.toList_applied]
  simp

/-- The first character of a rule's text. It says which operator is outermost. -/
def initial : Rule α → Char
  | .simple _ => 'S'
  | .and _ => 'A'
  | .or _ => 'O'
  | .not _ => 'N'

theorem exists_debug_eq_cons (rule : Rule α) : ∃ cs, rule.debug.toList = rule.initial :: cs := by
  cases rule with
  | simple leaf => exact ⟨"imple(<evaluator>)".toList, by simp [debug, initial]⟩
  | and operands => exact ⟨_, by rw [← List.append_nil (debug _).toList, debug_and_append]; rfl⟩
  | or operands => exact ⟨_, by rw [← List.append_nil (debug _).toList, debug_or_append]; rfl⟩
  | not operand => exact ⟨_, by rw [← List.append_nil (debug _).toList, debug_not_append]; rfl⟩

theorem initial_eq_of_append_eq {rule : Rule α} {c : Char} {rest cs : List Char}
    (h : rule.debug.toList ++ rest = c :: cs) : rule.initial = c := by
  obtain ⟨more, hmore⟩ := rule.exists_debug_eq_cons
  rw [hmore] at h
  exact (List.cons.inj h).1

/-- No rule begins with the bracket that ends a list of them. -/
theorem initial_ne_bracket (rule : Rule α) : rule.initial ≠ ']' := by
  cases rule <;> simp [initial]

/-! ## Where a text ends -/

mutual

/-- **The shape of a rule is known from its text, and so is where the text ends.** -/
theorem debug_append_inj (rule : Rule α) (rule' : Rule β) {rest rest' : List Char}
    (h : rule.debug.toList ++ rest = rule'.debug.toList ++ rest') :
    rule.shape = rule'.shape ∧ rest = rest' := by
  have hinitial : rule.initial = rule'.initial := by
    obtain ⟨cs, hcs⟩ := rule'.exists_debug_eq_cons
    rw [hcs] at h
    exact initial_eq_of_append_eq h
  match rule with
  | .simple leaf =>
    cases rule' with
    | simple leaf' => exact ⟨rfl, List.append_cancel_left h⟩
    | _ => exact absurd hinitial (by simp [initial])
  | .and operands =>
    cases rule' with
    | and operands' =>
      rw [debug_and_append, debug_and_append] at h
      obtain ⟨hoperands, hrest⟩ := list_append_inj operands operands' (List.append_cancel_left h)
      refine ⟨?_, (List.cons.inj hrest).2⟩
      rw [shape, shape, map, map, mapAll_eq, mapAll_eq]
      exact congrArg Rule.and hoperands
    | _ => exact absurd hinitial (by simp [initial])
  | .or operands =>
    cases rule' with
    | or operands' =>
      rw [debug_or_append, debug_or_append] at h
      obtain ⟨hoperands, hrest⟩ := list_append_inj operands operands' (List.append_cancel_left h)
      refine ⟨?_, (List.cons.inj hrest).2⟩
      rw [shape, shape, map, map, mapAll_eq, mapAll_eq]
      exact congrArg Rule.or hoperands
    | _ => exact absurd hinitial (by simp [initial])
  | .not operand =>
    cases rule' with
    | not operand' =>
      rw [debug_not_append, debug_not_append] at h
      obtain ⟨hoperand, hrest⟩ := debug_append_inj operand operand' (List.append_cancel_left h)
      exact ⟨congrArg Rule.not hoperand, (List.cons.inj hrest).2⟩
    | _ => exact absurd hinitial (by simp [initial])

/-- The same for a list of operands, which its bracket ends. -/
theorem list_append_inj (rules : List (Rule α)) (rules' : List (Rule β)) {rest rest' : List Char}
    (h : listChars rules ++ ']' :: rest = listChars rules' ++ ']' :: rest') :
    rules.map shape = rules'.map shape ∧ rest = rest' := by
  match rules with
  | [] =>
    cases rules' with
    | nil => exact ⟨rfl, (List.cons.inj h).2⟩
    | cons rule' more' =>
      rw [listChars, listChars, List.append_assoc] at h
      exact absurd (initial_eq_of_append_eq h.symm) (initial_ne_bracket rule')
  | rule :: more =>
    cases rules' with
    | nil =>
      rw [listChars, listChars, List.append_assoc] at h
      exact absurd (initial_eq_of_append_eq h) (initial_ne_bracket rule)
    | cons rule' more' =>
      rw [listChars, listChars, List.append_assoc, List.append_assoc] at h
      obtain ⟨hrule, hmore⟩ := debug_append_inj rule rule' h
      obtain ⟨hothers, hrest⟩ := more_append_inj more more' hmore
      exact ⟨by rw [List.map_cons, List.map_cons, hrule, hothers], hrest⟩

/-- The same for the operands behind the first one. -/
theorem more_append_inj (rules : List (Rule α)) (rules' : List (Rule β)) {rest rest' : List Char}
    (h : moreChars rules ++ ']' :: rest = moreChars rules' ++ ']' :: rest') :
    rules.map shape = rules'.map shape ∧ rest = rest' := by
  match rules with
  | [] =>
    cases rules' with
    | nil => exact ⟨rfl, (List.cons.inj h).2⟩
    | cons rule' more' => exact absurd (List.cons.inj h).1 (by decide)
  | rule :: more =>
    cases rules' with
    | nil => exact absurd (List.cons.inj h).1 (by decide)
    | cons rule' more' =>
      rw [moreChars, moreChars, List.flatMap_cons, List.flatMap_cons, List.append_assoc,
        List.append_assoc] at h
      obtain ⟨hrule, hmore⟩ :=
        debug_append_inj rule rule' (List.cons.inj (List.cons.inj h).2).2
      obtain ⟨hothers, hrest⟩ := more_append_inj more more' hmore
      exact ⟨by rw [List.map_cons, List.map_cons, hrule, hothers], hrest⟩

end

/-- **The text of a rule says its shape and nothing else.** -/
theorem debug_eq_iff {rule : Rule α} {rule' : Rule β} :
    rule.debug = rule'.debug ↔ rule.shape = rule'.shape := by
  constructor
  · intro h
    have hchars : rule.debug.toList ++ [] = rule'.debug.toList ++ [] := by rw [h]
    exact (debug_append_inj rule rule' hchars).1
  · intro h
    have hshape := congrArg debug h
    rwa [shape, shape, debug_map, debug_map] at hshape

/-! ## One line -/

mutual

/-- **A rule is shown on one line.** -/
theorem newline_not_mem_debug (rule : Rule α) : '\n' ∉ rule.debug.toList := by
  match rule with
  | .simple leaf => simp [debug]
  | .and operands =>
    have hoperands := newline_not_mem_list operands
    rw [← List.append_nil (debug _).toList, debug_and_append]
    simp [hoperands]
  | .or operands =>
    have hoperands := newline_not_mem_list operands
    rw [← List.append_nil (debug _).toList, debug_or_append]
    simp [hoperands]
  | .not operand =>
    have hoperand := newline_not_mem_debug operand
    rw [← List.append_nil (debug _).toList, debug_not_append]
    simp [hoperand]

theorem newline_not_mem_list (rules : List (Rule α)) : '\n' ∉ listChars rules := by
  match rules with
  | [] => exact List.not_mem_nil
  | rule :: more =>
    have hrule := newline_not_mem_debug rule
    have hmore := newline_not_mem_more more
    simp [listChars, hrule, hmore]

theorem newline_not_mem_more (rules : List (Rule α)) : '\n' ∉ moreChars rules := by
  match rules with
  | [] => exact List.not_mem_nil
  | rule :: more =>
    have hrule := newline_not_mem_debug rule
    have hmore := newline_not_mem_more more
    rw [moreChars, List.flatMap_cons, ← moreChars]
    simp [hrule, hmore]

end

end ViewTree.Rule
