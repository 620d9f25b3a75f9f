import TimedWaits.Text.Fields
import TimedWaits.Text.Numeral

/-! Where a text is cut. A marker that ends with a character of its own cannot begin before it is written
and end within it, so the text before it only has to be free of it. Words end at the next blank. -/

set_option autoImplicit false

namespace TimedWaits.Text

variable {marker text rest word : List Char} {character : Char}

/-- The last character of a marker stands nowhere else in it. -/
def EndsOnce (marker : List Char) : Prop :=
  ∃ leading last, marker = leading ++ [last] ∧ last ∉ leading

private theorem EndsOnce.ne_nil (endsOnce : EndsOnce marker) : marker ≠ [] := by
  obtain ⟨leading, last, rfl, -⟩ := endsOnce
  exact List.append_ne_nil_of_right_ne_nil _ (List.cons_ne_nil _ _)

/-- A marker does not end within another one that begins where it has not ended yet. -/
theorem EndsOnce.eq_nil_of_append {begun ended : List Char} (endsOnce : EndsOnce (begun ++ ended))
    (another : ended <+: begun ++ ended) (begins : begun ≠ []) : ended = [] := by
  obtain ⟨leading, last, same, once⟩ := endsOnce
  rcases List.eq_nil_or_concat ended with empty | ⟨front, final, concat⟩
  · exact empty
  · rw [List.concat_eq_append] at concat
    subst concat
    rw [← List.append_assoc] at same another
    obtain ⟨rfl, isLast⟩ := List.append_inj' same rfl
    cases isLast
    have shorter : (front ++ [last]).length ≤ (begun ++ front).length := by
      have := List.length_pos_iff.mpr begins
      simp only [List.length_append, List.length_singleton]
      omega
    have early := List.prefix_of_prefix_length_le another (List.prefix_append _ _) shorter
    exact absurd (early.subset (List.mem_append_right _ List.mem_cons_self)) once

/-- A marker does not begin before the first place where it is written. -/
private theorem EndsOnce.not_earlier (endsOnce : EndsOnce marker) (nonempty : text ≠ [])
    (unmarked : ¬ marker <:+: text) (rest : List Char) : ¬ marker <+: text ++ marker ++ rest := by
  rw [List.append_assoc]
  intro early
  rcases Nat.le_total marker.length text.length with short | long
  · exact unmarked (List.prefix_of_prefix_length_le early (List.prefix_append _ _) short).isInfix
  · obtain ⟨ended, rfl⟩ := List.prefix_of_prefix_length_le (List.prefix_append text _) early long
    have another : ended <+: (text ++ ended) ++ rest := (List.prefix_append_right_inj text).mp early
    have within : ended <+: text ++ ended :=
      List.prefix_of_prefix_length_le another (List.prefix_append _ _) (by simp)
    have empty := endsOnce.eq_nil_of_append within nonempty
    subst empty
    exact unmarked (by simp)

theorem after?_append (endsOnce : EndsOnce marker) (unmarked : ¬ marker <:+: text) :
    after? marker (text ++ marker ++ rest) = some rest := by
  induction text with
  | nil =>
      obtain ⟨head, tail, rfl⟩ := List.exists_cons_of_ne_nil endsOnce.ne_nil
      simp [after?]
  | cons head tail ih =>
      have late := endsOnce.not_earlier (List.cons_ne_nil head tail) unmarked rest
      have unmarkedTail : ¬ marker <:+: tail := fun inTail => unmarked (List.infix_cons inTail)
      rw [List.cons_append, List.cons_append] at late ⊢
      rw [after?, if_neg (by simpa using late), ih unmarkedTail]

theorem after?_eq_none (unmarked : ¬ marker <:+: text) : after? marker text = none := by
  induction text with
  | nil =>
      have nonempty : marker ≠ [] := fun empty => unmarked (by simp [empty])
      rw [after?, if_neg (by simpa using nonempty)]
  | cons head tail ih =>
      have notHere : ¬ marker <+: head :: tail := fun here => unmarked here.isInfix
      rw [after?, if_neg (by simpa using notHere), ih fun inTail => unmarked (List.infix_cons inTail)]

theorem before_eq_self (unmarked : ¬ marker <:+: text) : before marker text = text := by
  induction text with
  | nil => rfl
  | cons head tail ih =>
      have notHere : ¬ marker <+: head :: tail := fun here => unmarked here.isInfix
      rw [before, if_neg (by simpa using notHere), ih fun inTail => unmarked (List.infix_cons inTail)]

/-- A word: some characters, and no blank among them. -/
structure IsWord (word : List Char) : Prop where
  nonempty : word ≠ []
  solid : ∀ character ∈ word, isBlank character = false

-- the blanks are looked for among the characters of the word, not the word among all characters
instance (word : List Char) : Decidable (IsWord word) :=
  decidable_of_iff (word ≠ [] ∧ word.all (!isBlank ·) = true)
    ⟨fun ⟨nonempty, solid⟩ => ⟨nonempty, by simpa using solid⟩,
      fun isWord => ⟨isWord.nonempty, by simpa using isWord.solid⟩⟩

private theorem words_blank (blank : isBlank character = true) (rest : List Char) :
    words (character :: rest) = words rest := by
  simp [words, List.splitOnP_cons_eq_if_modifyHead, blank]

private theorem words_append (isWord : IsWord word) (blank : isBlank character = true) (rest : List Char) :
    words (word ++ character :: rest) = word :: words rest := by
  rw [words, List.splitOnP_append_cons_of_forall_mem isWord.solid character blank,
    List.filter_cons_of_pos (by simpa using isWord.nonempty)]
  rfl

private theorem words_word (isWord : IsWord word) : words word = [word] := by
  rw [words, List.splitOnP_eq_singleton isWord.solid,
    List.filter_cons_of_pos (by simpa using isWord.nonempty), List.filter_nil]

theorem not_mem_intercalate {separator : Char} {parts : List (List Char)}
    (other : character ≠ separator) (each : ∀ part ∈ parts, character ∉ part) :
    character ∉ [separator].intercalate parts := by
  induction parts with
  | nil => exact List.not_mem_nil
  | cons part later ih =>
      obtain ⟨notInPart, eachLater⟩ := List.forall_mem_cons.mp each
      cases later with
      | nil => rwa [List.intercalate_singleton]
      | cons next further =>
          rw [List.intercalate_cons_cons]
          simp [notInPart, other, ih eachLater]

/-- Words in a row, each with a space before it. -/
def spaced (parts : List (List Char)) : List Char := parts.flatMap (' ' :: ·)

theorem words_spaced {parts : List (List Char)} (each : ∀ word ∈ parts, IsWord word) :
    words (spaced parts) = parts := by
  have space : isBlank ' ' = true := by decide
  induction parts with
  | nil => rfl
  | cons word later ih =>
      obtain ⟨isWord, eachLater⟩ := List.forall_mem_cons.mp each
      change words (' ' :: (word ++ spaced later)) = _
      rw [words_blank space]
      cases later with
      | nil => rw [spaced, List.flatMap_nil, List.append_nil, words_word isWord]
      | cons next further =>
          have read := ih eachLater
          change words (' ' :: (next ++ spaced further)) = _ at read
          rw [words_blank space] at read
          exact (words_append isWord space _).trans (congrArg _ read)

private theorem toNat_of_isDigit (digit : character.isDigit = true) :
    48 ≤ character.toNat ∧ character.toNat ≤ 57 := by
  simp only [Char.isDigit, Bool.and_eq_true, decide_eq_true_eq, ge_iff_le,
    UInt32.le_iff_toNat_le] at digit
  exact digit

private theorem isBlank_of_isDigit (digit : character.isDigit = true) : isBlank character = false := by
  have range := toNat_of_isDigit digit
  simp only [isBlank, blankRanges, List.any_cons, List.any_nil, Bool.or_false, Bool.or_eq_false_iff,
    Bool.and_eq_false_iff, decide_eq_false_iff_not]
  omega

/-- A text of decimal digits only. -/
def AllDigits (text : List Char) : Prop := ∀ character ∈ text, character.isDigit = true

instance (text : List Char) : Decidable (AllDigits text) := List.decidableBAll _ text

theorem AllDigits.not_mem (digits : AllDigits text) (other : character.isDigit = false) :
    character ∉ text := by
  intro member
  rw [digits character member] at other
  contradiction

theorem AllDigits.solid (digits : AllDigits text) :
    ∀ character ∈ text, isBlank character = false :=
  fun character member => isBlank_of_isDigit (digits character member)

theorem AllDigits.isWord (digits : AllDigits text) (nonempty : text ≠ []) : IsWord text :=
  ⟨nonempty, digits.solid⟩

theorem AllDigits.numeral? {limit : Nat} (digits : AllDigits text) (nonempty : text ≠ [])
    (bounded : Nat.ofDigitChars 10 text 0 ≤ limit) :
    numeral? limit text = some (Nat.ofDigitChars 10 text 0) := by
  have noSign : unsigned text = text := by
    rw [unsigned]
    rintro after rfl
    exact digits.not_mem (by decide) List.mem_cons_self
  have given : text.isEmpty = false := by simpa using nonempty
  have all : text.all Char.isDigit = true := List.all_eq_true.mpr digits
  simp [Text.numeral?, noSign, given, all, bounded]

end TimedWaits.Text
