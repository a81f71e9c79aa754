import ViewTree.Proofs.Json.Nesting

/-!
# Objects as maps

Apart from its text, a value is kept with its objects as **maps**: their keys are in order, and none
is repeated. `Ordered` says so, and it is what the reader gives (`inherited_ordered`). What is
written need not be ordered, since a writer has its own order of fields; `sorted` is such a value as
it is kept.

So what is written is read back as it is kept, if it is not nested too deep, and is no JSON if it is
(`parseWith_chars`). Nothing else is lost on the way.
-/

set_option autoImplicit false

namespace ViewTree.Json

mutual

/-- A value with every object as a map. -/
def sorted : Json → Json
  | .arr items => .arr (sortedAll items)
  | .obj fields => .ofDictionary (.ofList (sortedFields fields))
  | .null => .null
  | .bool b => .bool b
  | .num n => .num n
  | .str s => .str s

/-- Elements with every object as a map. -/
def sortedAll : List Json → List Json
  | [] => []
  | item :: rest => sorted item :: sortedAll rest

/-- Fields with every object in their values as a map. -/
def sortedFields : List (String × Json) → List (String × Json)
  | [] => []
  | (key, value) :: rest => (key, sorted value) :: sortedFields rest

end

mutual

/-- What has its keys in order is kept as it is. -/
theorem sorted_of_ordered {j : Json} (h : j.Ordered) : j.sorted = j := by
  match j with
  | .null | .bool _ | .num _ | .str _ => rfl
  | .arr items => rw [sorted, sortedAll_of_ordered h]
  | .obj fields =>
    rw [sorted, sortedFields_of_ordered h.2]
    exact congrArg ofDictionary (Dictionary.ofList_entries ⟨fields, h.1⟩)

theorem sortedAll_of_ordered {items : List Json} (h : OrderedAll items) :
    sortedAll items = items := by
  match items with
  | [] => rfl
  | item :: rest => rw [sortedAll, sorted_of_ordered h.1, sortedAll_of_ordered h.2]

theorem sortedFields_of_ordered {fields : List (String × Json)} (h : OrderedFields fields) :
    sortedFields fields = fields := by
  match fields with
  | [] => rfl
  | (key, value) :: rest =>
    rw [sortedFields, sorted_of_ordered h.1, sortedFields_of_ordered h.2]

end

theorem orderedAll_of_forall {items : List Json} (h : ∀ item ∈ items, item.Ordered) :
    OrderedAll items := by
  induction items with
  | nil => trivial
  | cons item rest ih =>
    obtain ⟨hitem, hrest⟩ := List.forall_mem_cons.mp h
    exact ⟨hitem, ih hrest⟩

/-- **What is read has its keys in order.** -/
theorem inherited_ordered : Inherited fun _ j => j.Ordered where
  scalar _ _ hj := ordered_of_nesting_eq_zero hj
  arr _ _ hitems := orderedAll_of_forall hitems
  obj _ d hfields := ⟨d.ordered, orderedFields_of_forall hfields⟩

/-! ## What is written is read back -/

theorem ok_bind {ε α β : Type} (a : α) (k : α → Except ε β) : (Except.ok a >>= k) = k a := rfl

/-- What follows a result that is there on a condition is done on that condition. -/
theorem bind_ite_ok {ε α β : Type} {p : Prop} [Decidable p] {a : α} {e : ε}
    {k : α → Except ε β} :
    ((if p then Except.ok a else Except.error e) >>= k) = if p then k a else .error e := by
  by_cases hp : p
  · rw [if_pos hp, if_pos hp]
    rfl
  · rw [if_neg hp, if_neg hp]
    rfl

mutual

theorem ofTree_ofJson (j : Json) (room : Nat) :
    ofTree room (.ofJson j) = if j.nesting ≤ room then .ok j.sorted else .error .malformed := by
  match j, room with
  | .null, room => rfl
  | .bool b, room => rfl
  | .num n, room => rfl
  | .str s, room => rfl
  | .arr items, 0 => rfl
  | .arr items, room + 1 =>
    rw [Tree.ofJson, ofTree, ofItems_ofItems items room, bind_ite_ok, nesting]
    simp only [Nat.succ_le_succ_iff]
    rfl
  | .obj fields, 0 => rfl
  | .obj fields, room + 1 =>
    rw [Tree.ofJson, ofTree, ofFields_ofFields fields room, bind_ite_ok, nesting]
    simp only [Nat.succ_le_succ_iff]
    rfl

theorem ofItems_ofItems (items : List Json) (room : Nat) :
    ofItems room (Tree.ofItems items) =
      if nestingAll items ≤ room then .ok (sortedAll items) else .error .malformed := by
  match items with
  | [] => rfl
  | item :: rest =>
    rw [Tree.ofItems, ofItems, ofTree_ofJson item room, ofItems_ofItems rest room, bind_ite_ok,
      bind_ite_ok, nestingAll]
    simp only [max_le_iff, ite_and]
    rfl

theorem ofFields_ofFields (fields : List (String × Json)) (room : Nat) :
    ofFields room (Tree.ofFields fields) =
      if nestingFields fields ≤ room then .ok (sortedFields fields) else .error .malformed := by
  match fields with
  | [] => rfl
  | (key, value) :: rest =>
    rw [Tree.ofFields, ofFields, ofTree_ofJson value room, ofFields_ofFields rest room, ok_bind,
      bind_ite_ok, bind_ite_ok, nestingFields]
    simp only [max_le_iff, ite_and]
    rfl

end

/-- **What is written is read back**, compact or indented, unless it is nested too deep, and then it
is no JSON. -/
theorem parseWith_chars {convert : Conversion} {num : Number → List Char}
    (hn : Undoes convert num) {blanks : Blanks} (hb : blanks.Blank) (j : Json) {ending : List Char}
    (h : ∀ c ∈ ending, isBlank c = true) :
    parseWith convert (String.ofList (j.chars num blanks 0 ++ ending)) =
      if j.nesting ≤ maxOpen then .ok j.sorted else .error .malformed := by
  rw [parseWith, String.toList_ofList, Tree.ofChars_chars hn hb j h]
  simp only [ofTree_ofJson, bind_ite_ok]
  rfl

end ViewTree.Json
