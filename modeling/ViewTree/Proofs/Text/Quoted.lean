import ViewTree.Text.Quoted

/-!
# Quoted texts are unambiguous

A quoted text stands between other characters, and the reader of a line has to know where it
**ends** and what it **says**. Both are one property: whatever follows, two quoted texts with what
follows them are the same characters only if the texts are the same and so is what follows
(`spellAll_append_inj`). That holds of a spelled character already, and then of a list of them
because none begins with the quote that ends the list.

A spelling has one of three forms, a letter behind a backslash, a number in braces, or the character
itself, and the first two characters say which. In the middle form the brace ends the digits, since
no digit is a brace, and the digits say the number.
-/

set_option autoImplicit false

namespace ViewTree.Text

/-! ## Runs -/

/-- What follows does not go on with characters of a class. -/
def Stops (p : Char → Bool) (cs : List Char) : Prop := ∀ c ∈ cs.head?, p c = false

theorem stops_cons {p : Char → Bool} {c : Char} (h : p c = false) (cs : List Char) :
    Stops p (c :: cs) := by
  intro d hd
  obtain rfl := Option.some.inj hd
  exact h

theorem takeWhile_of_stops {p : Char → Bool} {cs : List Char} (h : Stops p cs) :
    cs.takeWhile p = [] := by
  cases cs with
  | nil => rfl
  | cons c cs => exact List.takeWhile_cons_of_neg (by simp [h c rfl])

theorem dropWhile_of_stops {p : Char → Bool} {cs : List Char} (h : Stops p cs) :
    cs.dropWhile p = cs := by
  cases cs with
  | nil => rfl
  | cons c cs => exact List.dropWhile_cons_of_neg (by simp [h c rfl])

theorem takeWhile_run {p : Char → Bool} {run rest : List Char} (hrun : ∀ c ∈ run, p c = true)
    (hrest : Stops p rest) : (run ++ rest).takeWhile p = run := by
  rw [List.takeWhile_append_of_pos hrun, takeWhile_of_stops hrest, List.append_nil]

/-- **A run ends where its class does.** -/
theorem run_append_inj {p : Char → Bool} {run run' rest rest' : List Char}
    (hrun : ∀ c ∈ run, p c = true) (hrun' : ∀ c ∈ run', p c = true) (hrest : Stops p rest)
    (hrest' : Stops p rest') (h : run ++ rest = run' ++ rest') : run = run' ∧ rest = rest' := by
  have hruns : run = run' := by
    rw [← takeWhile_run hrun hrest, h, takeWhile_run hrun' hrest']
  rw [hruns] at h
  exact ⟨hruns, List.append_cancel_left h⟩

/-! ## Numbers -/

theorem hexDigits_eq (n : Nat) :
    hexDigits n =
      if n < 16 then [Nat.digitChar n] else hexDigits (n / 16) ++ [Nat.digitChar (n % 16)] :=
  Nat.toDigits_eq_if (by decide)

/-- The digits of hexadecimal numbers. -/
def isHexDigit (c : Char) : Bool := c.isDigit || ('a' ≤ c && c ≤ 'f')

theorem isHexDigit_digitChar : ∀ n < 16, isHexDigit (Nat.digitChar n) = true := by decide

theorem digitChar_inj : ∀ m < 16, ∀ n < 16, Nat.digitChar m = Nat.digitChar n → m = n := by decide

theorem isHexDigit_of_mem (n : Nat) : ∀ c ∈ hexDigits n, isHexDigit c = true := by
  induction n using Nat.strongRecOn with
  | ind n ih =>
    rw [hexDigits_eq]
    by_cases hn : n < 16
    · rw [if_pos hn]
      exact List.forall_mem_singleton.mpr (isHexDigit_digitChar n hn)
    · rw [if_neg hn]
      intro c hc
      rcases List.mem_append.mp hc with hc | hc
      · exact ih (n / 16) (by omega) c hc
      · rw [List.mem_singleton.mp hc]
        exact isHexDigit_digitChar _ (by omega)

theorem length_hexDigits_pos (n : Nat) : 0 < (hexDigits n).length := Nat.length_toDigits_pos

/-- A number is spelled in one way only, so it is known from its digits. -/
theorem hexDigits_inj (m n : Nat) (h : hexDigits m = hexDigits n) : m = n := by
  induction m using Nat.strongRecOn generalizing n with
  | ind m ih =>
    rw [hexDigits_eq m, hexDigits_eq n] at h
    by_cases hm : m < 16
    · by_cases hn : n < 16
      · rw [if_pos hm, if_pos hn] at h
        exact digitChar_inj m hm n hn (List.cons.inj h).1
      · rw [if_pos hm, if_neg hn] at h
        -- One digit is not two.
        have hlength := congrArg List.length h
        have hpos := length_hexDigits_pos (n / 16)
        rw [List.length_append, List.length_singleton, List.length_singleton] at hlength
        omega
    · by_cases hn : n < 16
      · rw [if_neg hm, if_pos hn] at h
        have hlength := congrArg List.length h
        have hpos := length_hexDigits_pos (m / 16)
        rw [List.length_append, List.length_singleton, List.length_singleton] at hlength
        omega
      · rw [if_neg hm, if_neg hn] at h
        obtain ⟨hfront, hlast⟩ := List.append_inj' h rfl
        have hquotient := ih (m / 16) (by omega) (n / 16) hfront
        have hremainder := digitChar_inj (m % 16) (by omega) (n % 16) (by omega)
          (List.cons.inj hlast).1
        omega

/-! ## Characters -/

/-- The character that a letter behind a backslash stands for. -/
def named : Char → Option Char
  | '"' => some '"'
  | '\\' => some '\\'
  | 'n' => some '\n'
  | 'r' => some '\r'
  | 't' => some '\t'
  | '0' => some '\x00'
  | _ => none

/-- A character is spelled as a letter behind a backslash, by its number, or as itself. -/
theorem spell_cases (c : Char) :
    (∃ letter, spell c = ['\\', letter] ∧ letter ≠ 'u' ∧ letter ≠ '\n' ∧ named letter = some c) ∨
    spell c = '\\' :: 'u' :: '\x7b' :: (hexDigits c.toNat ++ ['\x7d']) ∨
    (spell c = [c] ∧ c ≠ '"' ∧ c ≠ '\\' ∧ c ≠ '\n') := by
  unfold spell
  by_cases hquote : c = '"'
  · exact .inl ⟨'"', by rw [if_pos hquote], by decide, by decide, by rw [hquote]; rfl⟩
  by_cases hslash : c = '\\'
  · exact .inl ⟨'\\', by rw [if_neg hquote, if_pos hslash], by decide, by decide,
      by rw [hslash]; rfl⟩
  rw [if_neg hquote, if_neg hslash]
  by_cases hn : c = '\n'
  · exact .inl ⟨'n', by rw [if_pos hn], by decide, by decide, by rw [hn]; rfl⟩
  rw [if_neg hn]
  by_cases hr : c = '\r'
  · exact .inl ⟨'r', by rw [if_pos hr], by decide, by decide, by rw [hr]; rfl⟩
  rw [if_neg hr]
  by_cases ht : c = '\t'
  · exact .inl ⟨'t', by rw [if_pos ht], by decide, by decide, by rw [ht]; rfl⟩
  rw [if_neg ht]
  by_cases hzero : c = '\x00'
  · exact .inl ⟨'0', by rw [if_pos hzero], by decide, by decide, by rw [hzero]; rfl⟩
  rw [if_neg hzero]
  by_cases hhidden : isHidden c = true
  · exact .inr (.inl (by rw [if_pos hhidden]; rfl))
  · exact .inr (.inr ⟨by rw [if_neg hhidden], hquote, hslash, hn⟩)

/-- **A spelled character is known, and so is where it ends.** -/
theorem spell_append_inj {c d : Char} {rest rest' : List Char}
    (h : spell c ++ rest = spell d ++ rest') : c = d ∧ rest = rest' := by
  rcases spell_cases c with ⟨letter, hc, hu, -, hletter⟩ | hc | ⟨hc, -, hslash, -⟩ <;>
    rcases spell_cases d with ⟨letter', hd, hu', -, hletter'⟩ | hd | ⟨hd, -, hslash', -⟩ <;>
    rw [hc, hd] at h
  · obtain ⟨rfl, hrest⟩ := List.cons.inj (List.cons.inj h).2
    exact ⟨Option.some.inj (hletter.symm.trans hletter'), hrest⟩
  · exact absurd (List.cons.inj (List.cons.inj h).2).1 hu
  · exact absurd (List.cons.inj h).1.symm hslash'
  · exact absurd (List.cons.inj (List.cons.inj h).2).1.symm hu'
  · rw [List.cons_append, List.cons_append, List.cons_append, List.cons_append, List.cons_append,
      List.cons_append, List.append_assoc, List.append_assoc] at h
    have hdigits := (List.cons.inj (List.cons.inj (List.cons.inj h).2).2).2
    obtain ⟨hnumber, hrest⟩ := run_append_inj (isHexDigit_of_mem _) (isHexDigit_of_mem _)
      (stops_cons (by decide) rest) (stops_cons (by decide) rest') hdigits
    exact ⟨Char.toNat_inj.mp (hexDigits_inj _ _ hnumber), (List.cons.inj hrest).2⟩
  · exact absurd (List.cons.inj h).1.symm hslash'
  · exact absurd (List.cons.inj h).1 hslash
  · exact absurd (List.cons.inj h).1 hslash
  · exact List.cons.inj h

/-- No spelled character begins like the end of a text. -/
theorem quote_ne_spell_append (c : Char) (rest rest' : List Char) :
    '"' :: rest ≠ spell c ++ rest' := by
  intro h
  rcases spell_cases c with ⟨letter, hc, -⟩ | hc | ⟨hc, hquote, -⟩ <;> rw [hc] at h
  · exact absurd (List.cons.inj h).1 (by decide)
  · exact absurd (List.cons.inj h).1 (by decide)
  · exact hquote (List.cons.inj h).1.symm

/-! ## Texts -/

theorem spellAll_cons_append (c : Char) (cs rest : List Char) :
    spellAll (c :: cs) ++ rest = spell c ++ (spellAll cs ++ rest) := by
  rw [spellAll, List.flatMap_cons, List.append_assoc, spellAll]

/-- **A spelled text is known, and so is where it ends**: at the first quote that is not part of it.
-/
theorem spellAll_append_inj {cs ds rest rest' : List Char}
    (h : spellAll cs ++ '"' :: rest = spellAll ds ++ '"' :: rest') : cs = ds ∧ rest = rest' := by
  induction cs generalizing ds with
  | nil =>
    cases ds with
    | nil => exact ⟨rfl, (List.cons.inj h).2⟩
    | cons d ds =>
      rw [spellAll_cons_append] at h
      exact absurd h (quote_ne_spell_append d _ _)
  | cons c cs ih =>
    cases ds with
    | nil =>
      rw [spellAll_cons_append] at h
      exact absurd h.symm (quote_ne_spell_append c _ _)
    | cons d ds =>
      rw [spellAll_cons_append, spellAll_cons_append] at h
      obtain ⟨rfl, hspelled⟩ := spell_append_inj h
      obtain ⟨rfl, hrest⟩ := ih hspelled
      exact ⟨rfl, hrest⟩

theorem toList_quoted (s : String) : (quoted s).toList = '"' :: (spellAll s.toList ++ ['"']) := by
  rw [quoted, String.toList_ofList]
  rfl

theorem quoted_append_inj {s t : String} {rest rest' : List Char}
    (h : (quoted s).toList ++ rest = (quoted t).toList ++ rest') : s = t ∧ rest = rest' := by
  rw [toList_quoted, toList_quoted, List.cons_append, List.cons_append, List.append_assoc,
    List.append_assoc] at h
  obtain ⟨hs, hrest⟩ := spellAll_append_inj (List.cons.inj h).2
  exact ⟨String.toList_inj.mp hs, hrest⟩

/-- **A quoted text stands on one line.** -/
theorem newline_not_mem_quoted (s : String) : '\n' ∉ (quoted s).toList := by
  intro h
  rw [toList_quoted, List.mem_cons, List.mem_append, List.mem_singleton] at h
  rcases h with h | h | h
  · exact absurd h (by decide)
  · obtain ⟨c, -, hc⟩ := List.mem_flatMap.mp h
    rcases spell_cases c with ⟨letter, hspell, -, hletter, -⟩ | hspell | ⟨hspell, -, -, hn⟩
    · rw [hspell] at hc
      simp [hletter.symm] at hc
    · rw [hspell] at hc
      have hdigit := isHexDigit_of_mem c.toNat '\n'
      simp only [List.mem_cons, List.mem_append, List.not_mem_nil, or_false] at hc
      rcases hc with hc | hc | hc | hc | hc
      · exact absurd hc (by decide)
      · exact absurd hc (by decide)
      · exact absurd hc (by decide)
      · exact absurd (hdigit hc) (by decide)
      · exact absurd hc (by decide)
    · rw [hspell, List.mem_singleton] at hc
      exact hn hc.symm
  · exact absurd h (by decide)

end ViewTree.Text
