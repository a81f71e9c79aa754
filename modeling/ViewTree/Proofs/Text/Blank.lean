import Mathlib.Data.List.TakeWhile
import ViewTree.Proofs.Text.Quoted
import ViewTree.Text.Blank

/-!
# What trimming leaves

To trim characters is to find the word inside its padding:

> the word that is left is the only one that neither begins nor ends with a blank and from which the
> characters come by putting blanks around it (`trimList_eq_iff`).

So whoever knows how characters were put together knows what trimming them gives, and need not look
at how it is done. The padding is determined as well, unless there is no word in it (`around_inj`).
-/

set_option autoImplicit false

namespace ViewTree.Text

/-- Nothing but blanks. -/
def Blank (cs : List Char) : Prop := ∀ c ∈ cs, isBlank c = true

/-- Neither the first nor the last character is a blank. -/
structure Trimmed (cs : List Char) : Prop where
  front : Stops isBlank cs
  back : Stops isBlank cs.reverse

instance (cs : List Char) : Decidable (Blank cs) :=
  decidable_of_iff (cs.all isBlank = true) List.all_eq_true

instance (p : Char → Bool) : (cs : List Char) → Decidable (Stops p cs)
  | [] => isTrue nofun
  | c :: cs => decidable_of_iff (p c = false) ⟨fun h => stops_cons h cs, fun h => h c rfl⟩

instance (cs : List Char) : Decidable (Trimmed cs) :=
  decidable_of_iff (Stops isBlank cs ∧ Stops isBlank cs.reverse)
    ⟨fun h => ⟨h.1, h.2⟩, fun h => ⟨h.front, h.back⟩⟩

theorem trimmed_nil : Trimmed [] where
  front := nofun
  back := nofun

theorem not_mem_of_blank {c : Char} {bs : List Char} (hc : isBlank c = false) (h : Blank bs) :
    c ∉ bs := fun hmem => absurd (h c hmem) (by simp [hc])

theorem blank_reverse {bs : List Char} (h : Blank bs) : Blank bs.reverse :=
  fun c hc => h c (List.mem_reverse.mp hc)

theorem Stops.of_append {p : Char → Bool} {cs ds : List Char} (h : Stops p (cs ++ ds)) :
    Stops p cs := by
  cases cs with
  | nil => exact nofun
  | cons c cs => exact h

/-! ## Padding -/

/-- Blanks to put in front of a word and behind it. -/
structure Padding where
  before : List Char
  after : List Char
  blankBefore : Blank before
  blankAfter : Blank after

namespace Padding

/-- A word with the blanks around it. -/
def around (p : Padding) (word : List Char) : List Char := p.before ++ word ++ p.after

/-- No blanks on either side. -/
def empty : Padding := ⟨[], [], nofun, nofun⟩

theorem around_empty (word : List Char) : empty.around word = word := List.append_nil word

theorem mem_around_of_mem {c : Char} {word : List Char} (p : Padding) (h : c ∈ word) :
    c ∈ p.around word := List.mem_append_left p.after (List.mem_append_right p.before h)

theorem not_mem_around {c : Char} {word : List Char} (p : Padding) (hc : isBlank c = false)
    (h : c ∉ word) : c ∉ p.around word := by
  rw [around, List.mem_append, List.mem_append]
  rintro ((hmem | hmem) | hmem)
  · exact not_mem_of_blank hc p.blankBefore hmem
  · exact h hmem
  · exact not_mem_of_blank hc p.blankAfter hmem

end Padding

/-! ## One side -/

theorem trimStart_append {bs : List Char} (h : Blank bs) (cs : List Char) :
    trimStart (bs ++ cs) = trimStart cs := List.dropWhile_append_of_pos h

theorem trimStart_of_stops {cs : List Char} (h : Stops isBlank cs) : trimStart cs = cs :=
  dropWhile_of_stops h

theorem stops_trimStart (cs : List Char) : Stops isBlank (trimStart cs) := by
  intro c hc
  have hhead := List.head?_dropWhile_not isBlank cs
  have hfirst : (cs.dropWhile isBlank).head? = some c := hc
  rwa [hfirst] at hhead

theorem exists_trimStart (cs : List Char) : ∃ bs, Blank bs ∧ cs = bs ++ trimStart cs :=
  ⟨cs.takeWhile isBlank, fun _ hc => List.mem_takeWhile_imp hc,
    List.takeWhile_append_dropWhile.symm⟩

theorem trimEnd_append {bs : List Char} (h : Blank bs) (cs : List Char) :
    trimEnd (cs ++ bs) = trimEnd cs := by
  show (trimStart (cs ++ bs).reverse).reverse = (trimStart cs.reverse).reverse
  rw [List.reverse_append, trimStart_append (blank_reverse h)]

theorem trimEnd_of_stops {cs : List Char} (h : Stops isBlank cs.reverse) : trimEnd cs = cs := by
  show (trimStart cs.reverse).reverse = cs
  rw [trimStart_of_stops h, List.reverse_reverse]

theorem exists_trimEnd (cs : List Char) : ∃ bs, Blank bs ∧ cs = trimEnd cs ++ bs := by
  obtain ⟨bs, hbs, hcs⟩ := exists_trimStart cs.reverse
  refine ⟨bs.reverse, blank_reverse hbs, ?_⟩
  calc cs = cs.reverse.reverse := (List.reverse_reverse cs).symm
    _ = (bs ++ trimStart cs.reverse).reverse := congrArg List.reverse hcs
    _ = trimEnd cs ++ bs.reverse := List.reverse_append

/-! ## Both sides -/

theorem trimmed_trimList (cs : List Char) : Trimmed (trimList cs) where
  front := by
    obtain ⟨bs, -, hbs⟩ := exists_trimEnd (trimStart cs)
    have hstart := stops_trimStart cs
    rw [hbs] at hstart
    exact hstart.of_append
  back := by
    show Stops isBlank (trimStart (trimStart cs).reverse).reverse.reverse
    rw [List.reverse_reverse]
    exact stops_trimStart _

theorem exists_around_trimList (cs : List Char) : ∃ p : Padding, cs = p.around (trimList cs) := by
  obtain ⟨before, hbefore, hstart⟩ := exists_trimStart cs
  obtain ⟨after, hafter, hend⟩ := exists_trimEnd (trimStart cs)
  refine ⟨⟨before, after, hbefore, hafter⟩, ?_⟩
  rw [Padding.around, List.append_assoc]
  exact hstart.trans (congrArg (before ++ ·) hend)

theorem trimList_around (p : Padding) {word : List Char} (h : Trimmed word) :
    trimList (p.around word) = word := by
  rw [trimList, Padding.around, List.append_assoc, trimStart_append p.blankBefore]
  cases word with
  | nil =>
    -- There is nothing inside, so the run in front goes through to the end.
    rw [List.nil_append, ← List.append_nil p.after, trimStart_append p.blankAfter]
    rfl
  | cons c cs =>
    have hfront : Stops isBlank (c :: cs ++ p.after) := stops_cons (h.front c rfl) _
    rw [trimStart_of_stops hfront, trimEnd_append p.blankAfter, trimEnd_of_stops h.back]

/-- **Trimming finds the word inside its padding.** -/
theorem trimList_eq_iff {cs word : List Char} :
    trimList cs = word ↔ Trimmed word ∧ ∃ p : Padding, cs = p.around word := by
  constructor
  · rintro rfl
    exact ⟨trimmed_trimList cs, exists_around_trimList cs⟩
  · rintro ⟨hword, p, rfl⟩
    exact trimList_around p hword

theorem trimList_eq_nil_iff {cs : List Char} : trimList cs = [] ↔ Blank cs := by
  constructor
  · intro h
    obtain ⟨-, p, rfl⟩ := trimList_eq_iff.mp h
    rw [Padding.around, List.append_nil]
    exact fun c hc => (List.mem_append.mp hc).elim (p.blankBefore c) (p.blankAfter c)
  · intro h
    exact trimList_eq_iff.mpr ⟨trimmed_nil, ⟨cs, [], h, nofun⟩, by simp [Padding.around]⟩

/-- **The padding of a word is known**, and so is the word. -/
theorem around_inj {p q : Padding} {word other : List Char} (hword : Trimmed word)
    (hother : Trimmed other) (hne : word ≠ []) (h : p.around word = q.around other) :
    p = q ∧ word = other := by
  obtain rfl : word = other := by rw [← trimList_around p hword, h, trimList_around q hother]
  have hstops : ∀ rest, Stops isBlank (word ++ rest) := by
    obtain ⟨c, cs, rfl⟩ := List.exists_cons_of_ne_nil hne
    exact fun rest => stops_cons (hword.front c rfl) _
  obtain ⟨before, after, hbefore, hafter⟩ := p
  obtain ⟨before', after', hbefore', hafter'⟩ := q
  rw [Padding.around, Padding.around, List.append_assoc, List.append_assoc] at h
  obtain ⟨rfl, hrest⟩ := run_append_inj hbefore hbefore' (hstops after) (hstops after') h
  obtain rfl := List.append_cancel_left hrest
  exact ⟨rfl, rfl⟩

end ViewTree.Text
