import ViewTree.Proofs.Host.Watch

/-!
# Searching layers

Metadata in layers may hold further metadata in layers, and so on. A look-up does not see that: it
**searches the leaves**, which are what the layers hold in the end, from left to right, and stops at
the first that finds something. How the layers were nested, and whether some were put below the
others afterwards, changes nothing.

**What was asked is no part of the answer.** A search that went on behind its first hit, or that
asked a leaf twice, would find the same value. Where look-ups have effects the host could tell, so
the statement is one about runs. `Search` says how the state moves: every leaf asked was asked in
the state which the leaf before it left, all but the last of them found nothing, and if any leaf was
left out then the last one asked did find something. That leaves one run only. `probed` then puts a
probe around every leaf, not just around those of the host, and the log of the probes is what
`Search` says.

**A typed accessor is the same search.** It converts what was found, and where the conversion fails
the answer is that there is nothing: no other leaf is asked, as the log shows.
-/

set_option autoImplicit false

namespace ViewTree

variable {σ α β : Type}

theorem Effect.run_bind_eq {e : Effect σ α} {k : α → Effect σ β} {s s' : σ} {a : α}
    (h : e.run s = (a, s')) : (e >>= k).run s = (k a).run s' := by
  rw [StateT.run_bind, h]
  rfl

namespace Metadata

open Effect (run_bind_eq)

/-! ## The leaves -/

/-- The metadata is not one of several layers. -/
def isLeaf : Metadata σ → Bool
  | .zip _ => false
  | _ => true

mutual

/-- What is held in layers in the end, from left to right. -/
def leaves : Metadata σ → List (Metadata σ)
  | .zip layers => leavesAll layers
  | leaf => [leaf]

/-- The leaves of several metadata, one after the other. -/
def leavesAll : List (Metadata σ) → List (Metadata σ)
  | [] => []
  | layer :: rest => leaves layer ++ leavesAll rest

end

theorem leaves_of_isLeaf {m : Metadata σ} (h : m.isLeaf) : m.leaves = [m] := by
  cases m with
  | zip => exact absurd h (by simp [isLeaf])
  | map | reflect | typed | host => rfl

theorem leavesAll_append (above below : List (Metadata σ)) :
    leavesAll (above ++ below) = leavesAll above ++ leavesAll below := by
  induction above with
  | nil => rfl
  | cons layer rest ih =>
    rw [List.cons_append, leavesAll, leavesAll, ih, List.append_assoc]

mutual

theorem isLeaf_of_mem_leaves (m : Metadata σ) : ∀ leaf ∈ m.leaves, leaf.isLeaf := by
  intro leaf hleaf
  match m with
  | .zip layers =>
    rw [leaves] at hleaf
    exact isLeaf_of_mem_leavesAll layers leaf hleaf
  | .map entries | .reflect shown serialized | .typed config | .host shown look =>
    rw [leaves_of_isLeaf rfl, List.mem_singleton] at hleaf
    rw [hleaf]
    rfl

theorem isLeaf_of_mem_leavesAll (layers : List (Metadata σ)) :
    ∀ leaf ∈ leavesAll layers, leaf.isLeaf := by
  intro leaf hleaf
  match layers with
  | [] => exact absurd hleaf (by simp [leavesAll])
  | layer :: rest =>
    rw [leavesAll] at hleaf
    rcases List.mem_append.mp hleaf with hleaf | hleaf
    · exact isLeaf_of_mem_leaves layer leaf hleaf
    · exact isLeaf_of_mem_leavesAll rest leaf hleaf

end

/-- What is put below all layers is asked after all leaves. -/
theorem leaves_push (m below : Metadata σ) : (m.push below).leaves = m.leaves ++ below.leaves := by
  have hbelow : leavesAll [below] = below.leaves := by
    rw [leavesAll, leavesAll, List.append_nil]
  cases m with
  | zip layers => rw [push, leaves, leaves, leavesAll_append, hbelow]
  | map | reflect | typed | host =>
    show leavesAll [_, below] = _
    rw [leavesAll, hbelow]

theorem leaves_foldl_push (m : Metadata σ) (below : List (Metadata σ)) :
    (below.foldl push m).leaves = m.leaves ++ leavesAll below := by
  induction below generalizing m with
  | nil => rw [List.foldl_nil, leavesAll, List.append_nil]
  | cons layer rest ih =>
    rw [List.foldl_cons, ih, leaves_push, leavesAll, List.append_assoc]

/-! ## A look-up searches the leaves -/

/-- What a search goes on with: what it has found, or another search. -/
def orElse (found? : Option α) (others : Effect σ (Option α)) : Effect σ (Option α) :=
  match found? with
  | some value => pure (some value)
  | none => others

theorem lookupFirst_cons (layer : Metadata σ) (rest : List (Metadata σ)) (key : String) :
    lookupFirst (layer :: rest) key =
      layer.lookup key >>= fun found? => orElse found? (lookupFirst rest key) := by
  rw [lookupFirst]
  refine congrArg _ (funext fun found? => ?_)
  cases found? with
  | some value => rfl
  | none => rfl

theorem lookupFirst_append (above below : List (Metadata σ)) (key : String) :
    lookupFirst (above ++ below) key =
      lookupFirst above key >>= fun found? => orElse found? (lookupFirst below key) := by
  induction above with
  | nil => rfl
  | cons layer rest ih =>
    rw [List.cons_append, lookupFirst_cons, lookupFirst_cons, ih, bind_assoc]
    refine congrArg _ (funext fun found? => ?_)
    cases found? with
    | some value => rfl
    | none => rfl

theorem lookupFirst_singleton (layer : Metadata σ) (key : String) :
    lookupFirst [layer] key = layer.lookup key := by
  have hlast : (fun found? => orElse found? (lookupFirst ([] : List (Metadata σ)) key)) = pure := by
    funext found?
    cases found? with
    | some value => rfl
    | none => rfl
  rw [lookupFirst_cons, hlast, bind_pure]

mutual

theorem lookup_eq (m : Metadata σ) (key : String) : m.lookup key = lookupFirst m.leaves key := by
  match m with
  | .zip layers =>
    rw [lookup, leaves]
    exact lookupFirst_eq layers key
  | .map entries | .reflect shown serialized | .typed config | .host shown look =>
    rw [leaves_of_isLeaf rfl, lookupFirst_singleton]

theorem lookupFirst_eq (layers : List (Metadata σ)) (key : String) :
    lookupFirst layers key = lookupFirst (leavesAll layers) key := by
  match layers with
  | [] => rfl
  | layer :: rest =>
    rw [leavesAll, lookupFirst_append, lookupFirst_cons, lookup_eq layer, lookupFirst_eq rest]

end

/-! ## Probes -/

/-- The metadata as a leaf that logs what it is asked for. -/
def probe (leaf : Metadata σ) : Metadata (Watched σ) :=
  .host leaf.debug fun key => (leaf.lookup key).watched (.look (leaf.lookup key))

mutual

/-- The same layers with a probe around every leaf. -/
def probed : Metadata σ → Metadata (Watched σ)
  | .zip layers => .zip (probedAll layers)
  | leaf => probe leaf

/-- Several metadata with probes. -/
def probedAll : List (Metadata σ) → List (Metadata (Watched σ))
  | [] => []
  | layer :: rest => probed layer :: probedAll rest

end

mutual

theorem leaves_probed (m : Metadata σ) : m.probed.leaves = m.leaves.map probe := by
  match m with
  | .zip layers =>
    rw [probed, leaves, leaves]
    exact leavesAll_probed layers
  | .map entries | .reflect shown serialized | .typed config | .host shown look =>
    rfl

theorem leavesAll_probed (layers : List (Metadata σ)) :
    leavesAll (probedAll layers) = (leavesAll layers).map probe := by
  match layers with
  | [] => rfl
  | layer :: rest =>
    rw [probedAll, leavesAll, leavesAll, List.map_append, leaves_probed layer,
      leavesAll_probed rest]

end

/-! ## A search -/

/-- The look-ups of the first leaves, each with its answer, for as many as there are answers. -/
def looks (leaves : List (Metadata σ)) (key : String) (answers : List (Option Json)) :
    List (Call σ) :=
  leaves.zipWith (fun leaf found? => .look (leaf.lookup key) found?) answers

theorem looks_nil (leaves : List (Metadata σ)) (key : String) : looks leaves key [] = [] :=
  List.zipWith_nil_right

theorem looks_cons (leaf : Metadata σ) (rest : List (Metadata σ)) (key : String)
    (found? : Option Json) (answers : List (Option Json)) :
    looks (leaf :: rest) key (found? :: answers) =
      .look (leaf.lookup key) found? :: looks rest key answers :=
  List.zipWith_cons_cons

/-- From state `s`, leaves asked from left to right up to the first hit answer so and leave `s'`. -/
structure Search (leaves : List (Metadata σ)) (key : String) (s : σ) (answers : List (Option Json))
    (s' : σ) : Prop where
  leaves_asked : answers.length ≤ leaves.length
  hit_ends : ∀ found? ∈ answers.dropLast, found? = none
  only_hit_ends : answers.length < leaves.length → ∃ value, answers.getLast? = some (some value)
  threads : Call.Threads s (looks leaves key answers) s'

namespace Search

variable {leaf : Metadata σ} {rest : List (Metadata σ)} {key : String} {s s' s'' : σ}

theorem nothing (key : String) (s : σ) : Search [] key s [] s where
  leaves_asked := Nat.le_refl 0
  hit_ends _ h := absurd h (by simp)
  only_hit_ends h := absurd h (by simp)
  threads := .nil s

theorem hit {value : Json} (h : (leaf.lookup key).run s = (some value, s')) :
    Search (leaf :: rest) key s [some value] s' where
  leaves_asked := by simp
  hit_ends _ h := absurd h (by simp)
  only_hit_ends _ := ⟨value, rfl⟩
  threads := by
    have hcall : (Call.look (leaf.lookup key) (some value)).Takes s s' := h
    rw [looks_cons, looks_nil]
    exact .cons hcall (.nil s')

theorem miss {answers : List (Option Json)} (h : (leaf.lookup key).run s = (none, s'))
    (hrest : Search rest key s' answers s'') :
    Search (leaf :: rest) key s (none :: answers) s'' where
  leaves_asked := Nat.succ_le_succ hrest.leaves_asked
  hit_ends found? hfound := by
    cases answers with
    | nil => exact absurd hfound (by simp)
    | cons next others =>
      rw [List.dropLast_cons_cons] at hfound
      rcases List.mem_cons.mp hfound with rfl | hfound
      · rfl
      · exact hrest.hit_ends found? hfound
  only_hit_ends hshort := by
    obtain ⟨value, hlast⟩ := hrest.only_hit_ends (Nat.lt_of_succ_lt_succ hshort)
    refine ⟨value, ?_⟩
    rw [List.getLast?_cons, hlast]
    rfl
  threads := by
    have hcall : (Call.look (leaf.lookup key) none).Takes s s' := h
    rw [looks_cons]
    exact .cons hcall hrest.threads

/-- A search of leaves begins with the first one, and its answer says how it goes on. -/
theorem cons_cases {answers : List (Option Json)} (h : Search (leaf :: rest) key s answers s'') :
    (∃ value, answers = [some value] ∧ (leaf.lookup key).run s = (some value, s'')) ∨
    ∃ others s', answers = none :: others ∧ (leaf.lookup key).run s = (none, s') ∧
      Search rest key s' others s'' := by
  cases answers with
  | nil =>
    obtain ⟨_, hlast⟩ := h.only_hit_ends (Nat.succ_pos _)
    exact absurd hlast (by simp)
  | cons found? others =>
    have hthreads := h.threads
    rw [looks_cons] at hthreads
    obtain _ | ⟨hcall, hothers⟩ := hthreads
    rename_i s'
    cases found? with
    | some value =>
      have hnone : others = [] := by
        cases others with
        | nil => rfl
        | cons next others => exact absurd (h.hit_ends (some value) (by simp)) (by simp)
      subst hnone
      rw [looks_nil] at hothers
      cases hothers
      exact .inl ⟨value, rfl, hcall⟩
    | none =>
      refine .inr ⟨others, s', rfl, hcall, Nat.le_of_succ_le_succ h.leaves_asked, ?_, ?_, hothers⟩
      · intro found? hfound
        cases others with
        | nil => exact absurd hfound (by simp)
        | cons next others => exact h.hit_ends found? (List.mem_cons_of_mem none hfound)
      · intro hshort
        obtain ⟨value, hlast⟩ := h.only_hit_ends (Nat.succ_lt_succ hshort)
        cases others with
        | nil => exact absurd hlast (by simp)
        | cons next others => exact ⟨value, hlast⟩

/-- **There is one search only,** so what it says of the answers leaves nothing open. -/
theorem unique {first second : List (Option Json)} {leaves : List (Metadata σ)} {s₁ s₂ : σ}
    (hfirst : Search leaves key s first s₁) (hsecond : Search leaves key s second s₂) :
    first = second ∧ s₁ = s₂ := by
  induction leaves generalizing s first second with
  | nil =>
    obtain rfl := List.eq_nil_of_length_eq_zero (Nat.le_zero.mp hfirst.leaves_asked)
    obtain rfl := List.eq_nil_of_length_eq_zero (Nat.le_zero.mp hsecond.leaves_asked)
    cases hfirst.threads
    cases hsecond.threads
    exact ⟨rfl, rfl⟩
  | cons leaf rest ih =>
    obtain ⟨v, rfl, hv⟩ | ⟨others, s', rfl, hnone, hothers⟩ := hfirst.cons_cases
    · obtain ⟨w, rfl, hw⟩ | ⟨_, _, rfl, hnone, _⟩ := hsecond.cons_cases
      · obtain ⟨hvw, rfl⟩ := Prod.mk.inj (hv.symm.trans hw)
        exact ⟨congrArg (fun found? => [found?]) hvw, rfl⟩
      · exact absurd (Prod.mk.inj (hv.symm.trans hnone)).1 (by simp)
    · obtain ⟨w, rfl, hw⟩ | ⟨others', s'', rfl, hnone', hothers'⟩ := hsecond.cons_cases
      · exact absurd (Prod.mk.inj (hnone.symm.trans hw)).1 (by simp)
      · obtain ⟨-, rfl⟩ := Prod.mk.inj (hnone.symm.trans hnone')
        obtain ⟨rfl, rfl⟩ := ih hothers hothers'
        exact ⟨rfl, rfl⟩

end Search

/-- From state `s`, reading a key gives `a` and leaves `s'`, and with probes it logs `calls`. -/
structure Reads (read : (τ : Type) → Metadata τ → String → Effect τ α) (m : Metadata σ)
    (key : String) (s : σ) (calls : List (Call σ)) (a : α) (s' : σ) : Prop where
  run : (read σ m key).run s = (a, s')
  logs : ∀ log, (read (Watched σ) m.probed key).run (s, log) = (a, s', log ++ calls)

/-- What is computed of a value that was read takes no further calls. -/
theorem Reads.convert {read : (τ : Type) → Metadata τ → String → Effect τ α} {m : Metadata σ}
    {key : String} {s s' : σ} {calls : List (Call σ)} {a : α} (h : Reads read m key s calls a s')
    (f : α → β) :
    Reads (fun τ m key => do
      let a ← read τ m key
      pure (f a)) m key s calls (f a) s' where
  run := by
    rw [run_bind_eq h.run]
    rfl
  logs log := by
    rw [run_bind_eq (h.logs log)]
    rfl

theorem search_leaves (leaves : List (Metadata σ)) (key : String) (s : σ) :
    ∃ answers s', Search leaves key s answers s' ∧
      (lookupFirst leaves key).run s = (answers.findSome? id, s') ∧
      ∀ log, (lookupFirst (leaves.map probe) key).run (s, log) =
        (answers.findSome? id, s', log ++ looks leaves key answers) := by
  -- A miss hands on the state it leaves, so the induction is over all states at once.
  induction leaves generalizing s with
  | nil =>
    refine ⟨[], s, .nothing key s, rfl, fun log => ?_⟩
    rw [looks_nil, List.append_nil]
    rfl
  | cons leaf rest ih =>
    -- What the first leaf does is done by its probe as well, and logged.
    obtain ⟨⟨found?, s'⟩, hleaf⟩ : ∃ out, (leaf.lookup key).run s = out := ⟨_, rfl⟩
    have hprobe : ∀ log, (leaf.probe.lookup key).run (s, log) =
        (found?, s', log ++ [.look (leaf.lookup key) found?]) := by
      intro log
      show (leaf.lookup key).watched _ (s, log) = _
      rw [Effect.watched, hleaf]
    cases found? with
    | some value =>
      refine ⟨[some value], s', .hit hleaf, ?_, fun log => ?_⟩
      · rw [lookupFirst_cons, run_bind_eq hleaf]
        rfl
      · rw [List.map_cons, lookupFirst_cons, run_bind_eq (hprobe log), looks_cons, looks_nil]
        rfl
    | none =>
      obtain ⟨answers, s'', hsearch, hrun, hlogs⟩ := ih s'
      refine ⟨none :: answers, s'', .miss hleaf hsearch, ?_, fun log => ?_⟩
      · rw [lookupFirst_cons, run_bind_eq hleaf]
        exact hrun
      · have hothers := hlogs (log ++ [.look (leaf.lookup key) none])
        rw [List.append_assoc] at hothers
        rw [List.map_cons, lookupFirst_cons, run_bind_eq (hprobe log), looks_cons]
        exact hothers

/-- **Layers answer in order.** However they are nested and whatever was put below them, a look-up
asks the leaves from left to right up to the first hit, each once, and gives that hit. The typed
accessors make the same search and convert what it finds. -/
theorem layers_answer_in_order (m : Metadata σ) (key : String) (s : σ) :
    m.lookup key = (Metadata.zip m.leaves).lookup key ∧
    (∀ leaf ∈ m.leaves, leaf.isLeaf) ∧
    (∀ below : List (Metadata σ), (below.foldl push m).leaves = m.leaves ++ leavesAll below) ∧
    ∃ answers s', Search m.leaves key s answers s' ∧
      (∀ others t, Search m.leaves key s others t → others = answers ∧ t = s') ∧
      let calls := looks m.leaves key answers
      let found? := answers.findSome? id
      Reads (@lookup) m key s calls found? s' ∧
      Reads (@getStr) m key s calls (found?.bind Json.str?) s' ∧
      Reads (@getBool) m key s calls (found?.bind Json.bool?) s' ∧
      Reads (@getDouble) m key s calls ((found?.bind Json.num?).map Number.toDouble) s' ∧
      Reads (@getUInt64) m key s calls ((found?.bind Json.num?).bind Number.toUInt64?) s' := by
  obtain ⟨answers, s', hsearch, hrun, hlogs⟩ := search_leaves m.leaves key s
  have hreads : Reads (@lookup) m key s (looks m.leaves key answers) (answers.findSome? id) s' := by
    refine ⟨?_, fun log => ?_⟩
    · rw [lookup_eq]
      exact hrun
    · rw [lookup_eq, leaves_probed]
      exact hlogs log
  refine ⟨lookup_eq m key, isLeaf_of_mem_leaves m, leaves_foldl_push m, answers, s', hsearch,
    fun others t hothers => hothers.unique hsearch, hreads, ?_, ?_, ?_, ?_⟩
  · exact hreads.convert fun found? => found?.bind Json.str?
  · exact hreads.convert fun found? => found?.bind Json.bool?
  · exact hreads.convert fun found? => (found?.bind Json.num?).map Number.toDouble
  · exact hreads.convert fun found? => (found?.bind Json.num?).bind Number.toUInt64?

/-- The second layer counts its look-ups and finds a truth value: no text, and the third layer,
which has one, does not help. -/
example :
    ((zip [zip [], host "" fun _ => do modify (· + 1); pure (some (.bool true)),
      reflect "" (some (.obj [("title", .str "Home")]))] : Metadata Nat).getStr "title").run 0 =
      (none, 1) := rfl

end Metadata

end ViewTree
