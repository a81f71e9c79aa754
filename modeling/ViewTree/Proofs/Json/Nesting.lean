import ViewTree.Proofs.Json.Writing

/-!
# How deep values are nested

The **nesting** of a value is the greatest number of containers that are open at once in its text.
The reader counts them down from 127 on its way in, and a container for which there is no room left
is no JSON to it. So nothing that is read is nested deeper (`nesting_of_parseWith`).

An object is read field by field, but as a dictionary. So its keys are in order, here and in all
objects inside it, which is what `Ordered` says.
-/

set_option autoImplicit false

namespace ViewTree

/-- Nothing is in the dictionary of a list but what is in the list. -/
theorem Dictionary.mem_ofList {α : Type} {pairs : List (String × α)} {entry : String × α}
    (h : entry ∈ (Dictionary.ofList pairs).entries) : entry ∈ pairs := by
  have hall : ∀ (pairs : List (String × α)) (d : Dictionary α),
      entry ∈ (d.insertAll pairs).entries → entry ∈ d.entries ∨ entry ∈ pairs := by
    intro pairs
    induction pairs with
    | nil => exact fun d hd => .inl hd
    | cons pair rest ih =>
      intro d hd
      rcases ih (d.insert pair.1 pair.2) hd with hd | hd
      · rcases mem_insertEntry hd with rfl | hd
        · exact .inr List.mem_cons_self
        · exact .inl hd
      · exact .inr (List.mem_cons_of_mem _ hd)
  exact (hall pairs .empty h).resolve_left (by simp [empty])

/-- What is in a dictionary is found in it. -/
theorem Dictionary.get?_of_mem {α : Type} {d : Dictionary α} {entry : String × α}
    (h : entry ∈ d.entries) : d.get? entry.1 = some entry.2 := by
  obtain ⟨first, second, hentries⟩ := List.append_of_mem h
  have hordered := d.ordered
  rw [hentries, List.pairwise_append] at hordered
  rw [get?, hentries, List.lookup_eq_some_iff]
  refine ⟨first, second, rfl, fun other hother => ?_⟩
  have hlt := hordered.2.2 other hother entry List.mem_cons_self
  simpa using (String.ne_of_lt hlt).symm

namespace Json

mutual

/-- The greatest number of arrays and objects that are open at once in a value. -/
def nesting : Json → Nat
  | .arr items => nestingAll items + 1
  | .obj fields => nestingFields fields + 1
  | _ => 0

/-- The greatest nesting of elements. -/
def nestingAll : List Json → Nat
  | [] => 0
  | item :: rest => max (nesting item) (nestingAll rest)

/-- The greatest nesting of fields. -/
def nestingFields : List (String × Json) → Nat
  | [] => 0
  | (_, value) :: rest => max (nesting value) (nestingFields rest)

end

mutual

/-- Every object has its keys in strictly ascending order. -/
def Ordered : Json → Prop
  | .arr items => OrderedAll items
  | .obj fields => fields.Pairwise (fun a b => a.1 < b.1) ∧ OrderedFields fields
  | _ => True

/-- Every object in elements has its keys in order. -/
def OrderedAll : List Json → Prop
  | [] => True
  | item :: rest => Ordered item ∧ OrderedAll rest

/-- Every object in fields has its keys in order. -/
def OrderedFields : List (String × Json) → Prop
  | [] => True
  | (_, value) :: rest => Ordered value ∧ OrderedFields rest

end

theorem nestingAll_le_iff {items : List Json} {n : Nat} :
    nestingAll items ≤ n ↔ ∀ item ∈ items, item.nesting ≤ n := by
  induction items with
  | nil => simp [nestingAll]
  | cons item rest ih => rw [nestingAll, max_le_iff, ih, List.forall_mem_cons]

theorem nestingFields_le_iff {fields : List (String × Json)} {n : Nat} :
    nestingFields fields ≤ n ↔ ∀ field ∈ fields, field.2.nesting ≤ n := by
  induction fields with
  | nil => simp [nestingFields]
  | cons field rest ih => rw [nestingFields, max_le_iff, ih, List.forall_mem_cons]

theorem nestingFields_append (first second : List (String × Json)) :
    nestingFields (first ++ second) = max (nestingFields first) (nestingFields second) := by
  refine eq_of_forall_ge_iff fun n => ?_
  simp only [max_le_iff, nestingFields_le_iff, List.mem_append, or_imp, forall_and]

theorem ordered_of_nesting_eq_zero {j : Json} (h : j.nesting = 0) : j.Ordered := by
  cases j with
  | arr items => exact absurd h (by simp [nesting])
  | obj fields => exact absurd h (by simp [nesting])
  | _ => trivial

theorem orderedFields_of_forall {fields : List (String × Json)}
    (h : ∀ field ∈ fields, field.2.Ordered) : OrderedFields fields := by
  induction fields with
  | nil => trivial
  | cons field rest ih =>
    obtain ⟨hfield, hrest⟩ := List.forall_mem_cons.mp h
    exact ⟨hfield, ih hrest⟩

/-! ## What is read -/

theorem bind_eq_ok {ε α β : Type} {x : Except ε α} {k : α → Except ε β} {b : β} :
    (x >>= k) = .ok b ↔ ∃ a, x = .ok a ∧ k a = .ok b := by
  cases x with
  | error e => exact ⟨fun h => absurd h (by simp [bind, Except.bind]), fun ⟨_, h, _⟩ => by cases h⟩
  | ok a => exact ⟨fun h => ⟨a, rfl, h⟩, fun ⟨_, h, hk⟩ => Except.ok.inj h ▸ hk⟩

theorem closed_eq_ok {α : Type} {value result : α} {stop : Option Fault} :
    Tree.closed value stop = .ok result ↔ stop = none ∧ value = result := by
  cases stop <;> simp [Tree.closed]

/-- A property of values in which so many more containers may be open: scalars have it, and a
container has it, with one more that may be open, if all that is inside does. -/
structure Inherited (motive : Nat → Json → Prop) : Prop where
  scalar : ∀ room j, j.nesting = 0 → motive room j
  arr : ∀ room items, (∀ item ∈ items, motive room item) → motive (room + 1) (.arr items)
  obj : ∀ room (d : Dictionary Json), (∀ field ∈ d.entries, motive room field.2) →
    motive (room + 1) (.ofDictionary d)

namespace Inherited

variable {motive : Nat → Json → Prop}

mutual

/-- **Everything that is read** has a property that is inherited. -/
theorem of_ofTree (hm : Inherited motive) {room : Nat} {t : Tree} {j : Json}
    (h : ofTree room t = .ok j) : motive room j := by
  match t, room with
  | .broken _ _, room => exact absurd h (by simp [ofTree])
  | .null, room =>
    rw [ofTree] at h
    exact Except.ok.inj h ▸ hm.scalar room _ rfl
  | .bool b, room =>
    rw [ofTree] at h
    exact Except.ok.inj h ▸ hm.scalar room _ rfl
  | .number (some n), room =>
    rw [ofTree] at h
    exact Except.ok.inj h ▸ hm.scalar room _ rfl
  | .number none, room => exact absurd h (by simp [ofTree])
  | .string (.ok s), room =>
    rw [ofTree] at h
    exact Except.ok.inj h ▸ hm.scalar room _ rfl
  | .string (.error _), room => exact absurd h (by simp [ofTree, Except.map])
  | .arr items stop, 0 => exact absurd h (by simp [ofTree])
  | .arr items stop, room + 1 =>
    rw [ofTree] at h
    obtain ⟨values, hvalues, h⟩ := bind_eq_ok.mp h
    rw [← (closed_eq_ok.mp h).2]
    exact hm.arr room values (of_ofItems hm hvalues)
  | .obj fields stop, 0 => exact absurd h (by simp [ofTree])
  | .obj fields stop, room + 1 =>
    rw [ofTree] at h
    obtain ⟨values, hvalues, h⟩ := bind_eq_ok.mp h
    rw [← (closed_eq_ok.mp h).2]
    -- Of a key that is repeated only the last value stays, but that one was read like the others.
    exact hm.obj room (.ofList values) fun field hfield =>
      of_ofFields hm hvalues field (Dictionary.mem_ofList hfield)

theorem of_ofItems (hm : Inherited motive) {room : Nat} {ts : List Tree} {items : List Json}
    (h : ofItems room ts = .ok items) : ∀ item ∈ items, motive room item := by
  match ts with
  | [] =>
    rw [ofItems] at h
    rw [← Except.ok.inj h]
    exact fun item hitem => absurd hitem (by simp)
  | t :: rest =>
    rw [ofItems] at h
    obtain ⟨first, hfirst, h⟩ := bind_eq_ok.mp h
    obtain ⟨others, hothers, h⟩ := bind_eq_ok.mp h
    rw [← Except.ok.inj h]
    exact List.forall_mem_cons.mpr ⟨of_ofTree hm hfirst, of_ofItems hm hothers⟩

theorem of_ofFields (hm : Inherited motive) {room : Nat}
    {ts : List (Except Fault String × Tree)} {fields : List (String × Json)}
    (h : ofFields room ts = .ok fields) :
    ∀ field ∈ fields, motive room field.2 := by
  match ts with
  | [] =>
    rw [ofFields] at h
    rw [← Except.ok.inj h]
    exact fun field hfield => absurd hfield (by simp)
  | (key, value) :: rest =>
    rw [ofFields] at h
    obtain ⟨name, -, h⟩ := bind_eq_ok.mp h
    obtain ⟨first, hfirst, h⟩ := bind_eq_ok.mp h
    obtain ⟨others, hothers, h⟩ := bind_eq_ok.mp h
    rw [← Except.ok.inj h]
    exact List.forall_mem_cons.mpr ⟨of_ofTree hm hfirst, of_ofFields hm hothers⟩

end

end Inherited

theorem inherited_nesting : Inherited fun room j => j.nesting ≤ room where
  scalar room _ hj := hj ▸ Nat.zero_le room
  arr _ _ hitems := Nat.succ_le_succ (nestingAll_le_iff.mpr hitems)
  obj _ _ hfields := Nat.succ_le_succ (nestingFields_le_iff.mpr hfields)

/-- **No value that is read is nested deeper than 127.** -/
theorem nesting_of_parseWith {convert : Conversion} {text : String} {j : Json}
    (h : parseWith convert text = .ok j) : j.nesting ≤ maxOpen := by
  rw [parseWith] at h
  generalize Tree.ofChars convert text.toList = scanned at h
  obtain ⟨t, trailing⟩ := scanned
  obtain ⟨value, hvalue, h⟩ := bind_eq_ok.mp h
  cases trailing with
  | true => exact absurd h (by simp [bind, Except.bind, throw, throwThe, MonadExceptOf.throw])
  | false =>
    obtain rfl := Except.ok.inj h
    exact inherited_nesting.of_ofTree hvalue

end Json

end ViewTree
