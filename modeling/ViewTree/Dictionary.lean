/-!
# Dictionaries

A **dictionary** maps texts to values and keeps its entries in strictly ascending order of their
keys. The order is part of the type, so two dictionaries with the same content are the same value,
iterating one needs no further sorting, and no key occurs twice.

Texts are compared character by character by code point, which is also the order of their UTF-8
bytes.

The content is seen through one function, `get?`. What each operation does to that view is said by
a lemma right behind it; beyond this module nobody looks at the list of entries except to print it.
-/

set_option autoImplicit false

namespace ViewTree

universe u v

/-- Entries with strictly ascending keys. -/
structure Dictionary (α : Type u) where
  /-- The entries, smallest key first. -/
  entries : List (String × α)
  /-- Every key is smaller than all the keys behind it. -/
  ordered : entries.Pairwise fun a b => a.1 < b.1

namespace Dictionary

variable {α : Type u} {β : Type v}

/-! ## Insertion into an ordered list -/

/-- Puts an entry where its key belongs. An entry that has the key already is replaced. -/
def insertEntry (key : String) (value : α) : List (String × α) → List (String × α)
  | [] => [(key, value)]
  | entry :: rest =>
    if key < entry.1 then (key, value) :: entry :: rest
    else if key = entry.1 then (key, value) :: rest
    else entry :: insertEntry key value rest

/-- Nothing is in the new list but the new entry and what was there. -/
theorem mem_insertEntry {key : String} {value : α} {entry : String × α} :
    ∀ {entries : List (String × α)}, entry ∈ insertEntry key value entries →
      entry = (key, value) ∨ entry ∈ entries
  | [], h => by simpa [insertEntry] using h
  | head :: rest, h => by
    unfold insertEntry at h
    split at h
    · simpa using h
    · split at h
      · rcases List.mem_cons.1 h with h | h
        · exact Or.inl h
        · exact Or.inr (List.mem_cons_of_mem _ h)
      · rcases List.mem_cons.1 h with h | h
        · exact Or.inr (h ▸ List.mem_cons_self)
        · rcases mem_insertEntry h with h | h
          · exact Or.inl h
          · exact Or.inr (List.mem_cons_of_mem _ h)

/-- The order survives an insertion. -/
theorem pairwise_insertEntry (key : String) (value : α) :
    ∀ {entries : List (String × α)}, entries.Pairwise (fun a b => a.1 < b.1) →
      (insertEntry key value entries).Pairwise (fun a b => a.1 < b.1)
  | [], _ => by simp [insertEntry]
  | head :: rest, h => by
    have hrest := List.pairwise_cons.1 h
    unfold insertEntry
    split
    · rename_i hlt
      refine List.pairwise_cons.2 ⟨fun other hother => ?_, h⟩
      rcases List.mem_cons.1 hother with rfl | hother
      · exact hlt
      · exact String.lt_trans hlt (hrest.1 other hother)
    · rename_i hge
      split
      · rename_i heq
        refine List.pairwise_cons.2 ⟨fun other hother => ?_, hrest.2⟩
        exact heq ▸ hrest.1 other hother
      · rename_i hne
        have hgt : head.1 < key := by
          rcases Std.lt_trichotomy key head.1 with h | h | h
          · exact absurd h hge
          · exact absurd h hne
          · exact h
        have ih := pairwise_insertEntry key value hrest.2
        refine List.pairwise_cons.2 ⟨fun other hother => ?_, ih⟩
        rcases mem_insertEntry hother with rfl | hother
        · exact hgt
        · exact hrest.1 other hother

/-- Looking a key up in a list asks the first entry, then the rest. -/
theorem lookup_cons (key : String) (entry : String × α) (rest : List (String × α)) :
    (entry :: rest).lookup key = if key = entry.1 then some entry.2 else rest.lookup key := by
  rw [List.lookup_cons]
  by_cases h : key = entry.1
  · rw [if_pos h, beq_iff_eq.2 h]
  · rw [if_neg h, beq_eq_false_iff_ne.2 h]

/-- Looking the inserted key up finds the inserted value, any other key what it found before. -/
theorem lookup_insertEntry (key other : String) (value : α) :
    ∀ entries : List (String × α), (insertEntry key value entries).lookup other =
      if other = key then some value else entries.lookup other
  | [] => by simp [insertEntry, lookup_cons]
  | head :: rest => by
    have ih := lookup_insertEntry key other value rest
    unfold insertEntry
    split
    · simp [lookup_cons]
    · split
      · rename_i heq
        by_cases h : other = key <;> simp [lookup_cons, ← heq, h]
      · rename_i hne
        by_cases h : other = head.1
        · simp [lookup_cons, h, Ne.symm hne]
        · simp [lookup_cons, h, ih]

/-- An entry whose key is behind all others goes to the end. -/
theorem insertEntry_of_lt {key : String} {value : α} {entries : List (String × α)}
    (h : ∀ entry ∈ entries, entry.1 < key) :
    insertEntry key value entries = entries ++ [(key, value)] := by
  induction entries with
  | nil => rfl
  | cons head rest ih =>
    have hhead : head.1 < key := h head List.mem_cons_self
    have hge : ¬ key < head.1 := fun hlt => String.lt_irrefl _ (String.lt_trans hhead hlt)
    have hne : key ≠ head.1 := fun heq => String.lt_irrefl _ (heq ▸ hhead)
    rw [insertEntry, if_neg hge, if_neg hne, List.cons_append,
      ih fun entry hentry => h entry (List.mem_cons_of_mem _ hentry)]

/-! ## Ordered lists and their look-ups -/

theorem lookup_eq_none_of_lt {key : String} {entries : List (String × α)}
    (h : ∀ entry ∈ entries, key < entry.1) : entries.lookup key = none := by
  induction entries with
  | nil => rfl
  | cons head rest ih =>
    have hne : key ≠ head.1 := fun heq => String.lt_irrefl head.1 (heq ▸ h head List.mem_cons_self)
    rw [lookup_cons, if_neg hne]
    exact ih fun entry hentry => h entry (List.mem_cons_of_mem _ hentry)

/-- A key that one of two lists with the same look-ups begins with is not in front of the other. -/
theorem not_lt_of_lookup_eq {a b : String × α} {as bs : List (String × α)}
    (hb : ∀ entry ∈ bs, b.1 < entry.1) (h : ∀ key, (a :: as).lookup key = (b :: bs).lookup key) :
    ¬ a.1 < b.1 := by
  intro hlt
  have hmissing : (b :: bs).lookup a.1 = none := by
    refine lookup_eq_none_of_lt fun entry hentry => ?_
    rcases List.mem_cons.1 hentry with rfl | hentry
    · exact hlt
    · exact String.lt_trans hlt (hb entry hentry)
  have hhead := h a.1
  rw [hmissing, lookup_cons, if_pos rfl] at hhead
  exact absurd hhead (by simp)

theorem eq_of_lookup_eq : ∀ {first second : List (String × α)},
    first.Pairwise (fun a b => a.1 < b.1) → second.Pairwise (fun a b => a.1 < b.1) →
    (∀ key, first.lookup key = second.lookup key) → first = second
  | [], [], _, _, _ => rfl
  | [], b :: _, _, _, h => absurd (h b.1) (by simp [lookup_cons])
  | a :: _, [], _, _, h => absurd (h a.1) (by simp [lookup_cons])
  | a :: as, b :: bs, hfirst, hsecond, h => by
    obtain ⟨ha, has⟩ := List.pairwise_cons.1 hfirst
    obtain ⟨hb, hbs⟩ := List.pairwise_cons.1 hsecond
    have hkey : a.1 = b.1 := by
      rcases Std.lt_trichotomy a.1 b.1 with hlt | heq | hlt
      · exact absurd hlt (not_lt_of_lookup_eq hb h)
      · exact heq
      · exact absurd hlt (not_lt_of_lookup_eq ha fun key => (h key).symm)
    have hvalue : a.2 = b.2 := by
      have hhead := h a.1
      rw [lookup_cons, lookup_cons, if_pos rfl, if_pos hkey] at hhead
      exact Option.some.inj hhead
    have hrest : as = bs := by
      refine eq_of_lookup_eq has hbs fun key => ?_
      by_cases heq : key = a.1
      · rw [heq, lookup_eq_none_of_lt ha, hkey, lookup_eq_none_of_lt hb]
      · have hother := h key
        rwa [lookup_cons, lookup_cons, if_neg heq, if_neg (hkey ▸ heq)] at hother
    rw [hrest, Prod.ext hkey hvalue]

theorem length_insertEntry {key : String} {value : α} {entries : List (String × α)}
    (h : entries.Pairwise fun a b => a.1 < b.1) :
    (insertEntry key value entries).length =
      if (entries.lookup key).isSome = true then entries.length else entries.length + 1 := by
  induction entries with
  | nil => rfl
  | cons head rest ih =>
    obtain ⟨hhead, hrest⟩ := List.pairwise_cons.1 h
    unfold insertEntry
    split
    · rename_i hlt
      have hnone : (head :: rest).lookup key = none := by
        refine lookup_eq_none_of_lt fun entry hentry => ?_
        rcases List.mem_cons.1 hentry with rfl | hentry
        · exact hlt
        · exact String.lt_trans hlt (hhead entry hentry)
      rw [hnone]
      rfl
    · split
      · rename_i heq
        rw [lookup_cons, if_pos heq]
        rfl
      · rename_i hne
        rw [lookup_cons, if_neg hne, List.length_cons, ih hrest, List.length_cons]
        split <;> rfl

/-! ## The operations -/

/-- The dictionary without entries. -/
def empty : Dictionary α := ⟨[], List.Pairwise.nil⟩

instance : Inhabited (Dictionary α) := ⟨empty⟩

/-- The value under a key. -/
def get? (d : Dictionary α) (key : String) : Option α := d.entries.lookup key

/-- Sets the value under a key. -/
def insert (d : Dictionary α) (key : String) (value : α) : Dictionary α :=
  ⟨insertEntry key value d.entries, pairwise_insertEntry key value d.ordered⟩

/-- Enters pairs one after the other; of several values for one key the last one stays. -/
def insertAll (d : Dictionary α) (pairs : List (String × α)) : Dictionary α :=
  pairs.foldl (fun d pair => d.insert pair.1 pair.2) d

/-- The dictionary of a list of pairs; of several values for one key the last one stays. -/
def ofList (pairs : List (String × α)) : Dictionary α := empty.insertAll pairs

/-- Whether there is a value under a key. -/
def contains (d : Dictionary α) (key : String) : Bool := (d.get? key).isSome

/-- The keys in ascending order. -/
def keys (d : Dictionary α) : List String := d.entries.map (·.1)

/-- The number of entries. -/
def size (d : Dictionary α) : Nat := d.entries.length

/-- Whether there is no entry. -/
def isEmpty (d : Dictionary α) : Bool := d.entries.isEmpty

/-- Applies a function to every value and leaves the keys alone. -/
def map (f : α → β) (d : Dictionary α) : Dictionary β :=
  ⟨d.entries.map fun entry => (entry.1, f entry.2), by
    simpa [List.pairwise_map] using d.ordered⟩

/-! ## What the operations do to the view -/

@[simp] theorem get?_empty (key : String) : (empty : Dictionary α).get? key = none := rfl

theorem get?_insert (d : Dictionary α) (key other : String) (value : α) :
    (d.insert key value).get? other = if other = key then some value else d.get? other :=
  lookup_insertEntry key other value d.entries

@[simp] theorem get?_insert_self (d : Dictionary α) (key : String) (value : α) :
    (d.insert key value).get? key = some value := by simp [get?_insert]

theorem get?_insert_of_ne (d : Dictionary α) {key other : String} (value : α)
    (h : other ≠ key) : (d.insert key value).get? other = d.get? other := by
  simp [get?_insert, h]

theorem contains_insert (d : Dictionary α) (key other : String) (value : α) :
    (d.insert key value).contains other = (decide (other = key) || d.contains other) := by
  rw [contains, contains, get?_insert]
  split <;> simp [*]

theorem contains_insertAll {d : Dictionary α} {pairs : List (String × α)} {key : String} :
    (d.insertAll pairs).contains key = true ↔
      d.contains key = true ∨ key ∈ pairs.map (·.1) := by
  induction pairs generalizing d with
  | nil => simp [insertAll]
  | cons pair rest ih =>
    have hrest := ih (d := d.insert pair.1 pair.2)
    rw [contains_insert, Bool.or_eq_true, decide_eq_true_iff] at hrest
    rw [List.map_cons, List.mem_cons, or_left_comm, ← or_assoc]
    exact hrest

theorem contains_ofList {pairs : List (String × α)} {key : String} :
    (ofList pairs).contains key = true ↔ key ∈ pairs.map (·.1) := by
  rw [ofList, contains_insertAll, or_iff_right]
  exact Bool.false_ne_true

theorem mem_keys {d : Dictionary α} {key : String} : key ∈ d.keys ↔ d.contains key = true := by
  have hlookup : ∀ entries : List (String × α),
      key ∈ entries.map (·.1) ↔ (entries.lookup key).isSome = true := by
    intro entries
    induction entries with
    | nil => simp
    | cons head rest ih =>
      rw [List.map_cons, List.mem_cons, lookup_cons, ih]
      split <;> simp [*]
  exact hlookup d.entries

/-- An insertion adds an entry unless it replaces one. -/
theorem size_insert (d : Dictionary α) (key : String) (value : α) :
    (d.insert key value).size = if d.contains key = true then d.size else d.size + 1 :=
  length_insertEntry d.ordered

/-- **The view is all there is**: dictionaries in which every look-up finds the same are equal. -/
theorem ext_get? {d e : Dictionary α} (h : ∀ key, d.get? key = e.get? key) : d = e := by
  obtain ⟨first, hfirst⟩ := d
  obtain ⟨second, hsecond⟩ := e
  obtain rfl : first = second := eq_of_lookup_eq hfirst hsecond h
  rfl

/-- Values under different keys can be set in either order. -/
theorem insert_comm (d : Dictionary α) {key other : String} (h : key ≠ other) (value second : α) :
    (d.insert key value).insert other second = (d.insert other second).insert key value := by
  refine ext_get? fun name => ?_
  rw [get?_insert, get?_insert, get?_insert, get?_insert]
  by_cases hname : name = key
  · rw [if_pos hname, if_neg (hname ▸ h), if_pos hname]
  · rw [if_neg hname, if_neg hname]

theorem entries_insertAll {pairs : List (String × α)} :
    ∀ {d : Dictionary α}, (d.entries ++ pairs).Pairwise (fun a b => a.1 < b.1) →
      (d.insertAll pairs).entries = d.entries ++ pairs := by
  induction pairs with
  | nil =>
    intro d _
    rw [List.append_nil]
    rfl
  | cons pair rest ih =>
    intro d h
    have hlast : (d.insert pair.1 pair.2).entries = d.entries ++ [pair] :=
      insertEntry_of_lt fun entry hentry =>
        (List.pairwise_append.1 h).2.2 entry hentry pair List.mem_cons_self
    have hsplit : d.entries ++ pair :: rest = (d.insert pair.1 pair.2).entries ++ rest := by
      rw [hlast, List.append_assoc, List.singleton_append]
    rw [hsplit] at h ⊢
    exact ih h

/-- A dictionary is the dictionary of its own entries. -/
@[simp] theorem ofList_entries (d : Dictionary α) : ofList d.entries = d := by
  refine ext_get? fun key => ?_
  have hentries : (ofList d.entries).entries = d.entries := entries_insertAll d.ordered
  rw [get?, get?, hentries]

/-- The keys ascend strictly, hence none occurs twice. -/
theorem pairwise_keys (d : Dictionary α) : d.keys.Pairwise (· < ·) := by
  simpa [keys, List.pairwise_map] using d.ordered

end Dictionary

end ViewTree
