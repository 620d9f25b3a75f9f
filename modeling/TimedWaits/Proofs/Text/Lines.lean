import TimedWaits.Text.Lines
import TimedWaits.Text.Times

/-! How a text falls into lines, read from its front: up to a line feed there is one line, whatever
follows, and a carriage return just before the line feed is no part of it. Replacing times works on each
line by itself, since no time runs over a line feed. -/

set_option autoImplicit false

namespace TimedWaits.Text

variable {line rest : List Char} {character : Char}

/-- What a line feed leaves of the characters before it: a carriage return at their end goes with it. -/
def withoutReturn (line : List Char) : List Char :=
  if line.getLast? = some '\r' then line.dropLast else line

theorem withoutReturn_concat (line : List Char) : withoutReturn (line ++ ['\r']) = line := by
  rw [withoutReturn, List.getLast?_concat, if_pos rfl, List.dropLast_concat]

private theorem withoutReturn_cons (other : line = [] → character ≠ '\r') :
    withoutReturn (character :: line) = character :: withoutReturn line := by
  cases line with
  | nil => simp [withoutReturn, other rfl]
  | cons head tail =>
      simp only [withoutReturn, List.getLast?_cons_cons, List.dropLast_cons_cons]
      split <;> rfl

theorem withoutReturn_eq_self (other : line.getLast? ≠ some '\r') : withoutReturn line = line := by
  rw [withoutReturn, if_neg other]

theorem withoutReturn_isInfix (line : List Char) : withoutReturn line <:+: line := by
  have leading : line.dropLast <+: line := List.dropLast_prefix line
  rw [withoutReturn]
  split
  · exact leading.isInfix
  · exact List.infix_rfl

/-- A character that does not begin a line end belongs to the first line. -/
theorem lines_cons {first : List Char} {later : List (List Char)} (noFeed : character ≠ '\n')
    (noEnd : character = '\r' → rest.head? ≠ some '\n') (known : lines rest = first :: later) :
    lines (character :: rest) = (character :: first) :: later := by
  rw [lines]
  · rw [known]
  · exact noFeed
  · rintro after rfl rfl
    exact noEnd rfl rfl

theorem lines_append_feed (oneLine : '\n' ∉ line) (rest : List Char) :
    lines (line ++ '\n' :: rest) = withoutReturn line :: lines rest := by
  induction line with
  | nil => exact lines_feed rest
  | cons character tail ih =>
      have noFeed : '\n' ≠ character := List.ne_of_not_mem_cons oneLine
      have oneTail : '\n' ∉ tail := List.not_mem_of_not_mem_cons oneLine
      by_cases ends : character = '\r' ∧ tail = []
      · obtain ⟨rfl, rfl⟩ := ends
        exact lines_return_feed rest
      · have apart : tail = [] → character ≠ '\r' := fun empty isReturn => ends ⟨isReturn, empty⟩
        rw [withoutReturn_cons apart]
        refine lines_cons noFeed.symm (fun isReturn feed => ?_) (ih oneTail)
        cases tail with
        | nil => exact apart rfl isReturn
        | cons next _ => exact oneTail (List.mem_of_head? feed)

/-- Characters without a line feed are all one line if nothing follows them. -/
theorem lines_of_unended (oneLine : '\n' ∉ line) (nonempty : line ≠ []) : lines line = [line] := by
  induction line with
  | nil => exact absurd rfl nonempty
  | cons character tail ih =>
      have noFeed : '\n' ≠ character := List.ne_of_not_mem_cons oneLine
      have oneTail : '\n' ∉ tail := List.not_mem_of_not_mem_cons oneLine
      cases tail with
      | nil => simp [lines, noFeed.symm]
      | cons next later =>
          refine lines_cons noFeed.symm (fun _ feed => ?_) (ih oneTail (List.cons_ne_nil _ _))
          exact oneTail (List.mem_of_head? feed)

/-- Lines in a row, each with a line feed after it. -/
def unlines (parts : List (List Char)) : List Char := parts.flatMap (· ++ ['\n'])

@[simp] theorem unlines_nil : unlines [] = [] := rfl

@[simp] theorem unlines_cons (line : List Char) (parts : List (List Char)) :
    unlines (line :: parts) = line ++ '\n' :: unlines parts := by
  simp [unlines]

theorem unlines_append (first second : List (List Char)) :
    unlines (first ++ second) = unlines first ++ unlines second := by
  simp [unlines]

/-- A line without any character that belongs to a line end. -/
def OneLine (line : List Char) : Prop := '\n' ∉ line ∧ '\r' ∉ line

instance (line : List Char) : Decidable (OneLine line) := inferInstanceAs (Decidable (_ ∧ _))

theorem oneLine_append {first second : List Char} :
    OneLine (first ++ second) ↔ OneLine first ∧ OneLine second := by
  simp only [OneLine, List.mem_append, not_or]
  exact and_and_and_comm

private theorem lines_unlines {parts : List (List Char)} (each : ∀ line ∈ parts, OneLine line) :
    lines (unlines parts) = parts := by
  induction parts with
  | nil => exact lines_nil
  | cons line later ih =>
      obtain ⟨⟨noFeed, noReturn⟩, eachLater⟩ := List.forall_mem_cons.mp each
      have other : line.getLast? ≠ some '\r' := fun last => noReturn (List.mem_of_getLast? last)
      rw [unlines_cons, lines_append_feed noFeed, withoutReturn_eq_self other, ih eachLater]

theorem maskTimesAfter_cons (digits rest : List Char) (noDigit : character.isDigit = false)
    (noTime : ∀ tenths hundredths later, character = '.' → rest = tenths :: hundredths :: 's' :: later →
      (tenths.isDigit && hundredths.isDigit) = false) :
    maskTimesAfter digits (character :: rest) = digits ++ character :: maskTimesAfter [] rest := by
  rw [maskTimesAfter.eq_def]
  split
  · next equal => cases equal
  · next tenths hundredths later equal =>
    obtain ⟨rfl, rfl⟩ := List.cons.inj equal
    have apart := noTime tenths hundredths later rfl rfl
    rw [Bool.and_assoc, apart, Bool.and_false]
    rfl
  · next equal =>
    obtain ⟨rfl, rfl⟩ := List.cons.inj equal
    rw [if_neg (by simp [noDigit])]

private theorem maskTimesAfter_append_feed (digits line rest : List Char) :
    maskTimesAfter digits (line ++ '\n' :: rest) =
      maskTimesAfter digits line ++ '\n' :: maskTimesAfter [] rest := by
  fun_induction maskTimesAfter digits line with
  | case1 digits =>
      refine maskTimesAfter_cons digits rest (by decide) fun tenths hundredths later isPoint => ?_
      exact absurd isPoint (by decide)
  | case2 digits tenths hundredths later isTime ih =>
      simp only [List.cons_append, maskTimesAfter, isTime, if_true, ih, List.append_assoc]
  | case3 digits tenths hundredths later isTime ih =>
      rw [List.cons_append, List.cons_append, List.cons_append, List.cons_append, maskTimesAfter,
        if_neg isTime]
      simp only [List.cons_append, List.append_assoc] at ih ⊢
      rw [ih]
  | case4 digits character later notTime isDigit ih =>
      rw [List.cons_append, maskTimesAfter, if_pos isDigit, ih]
      rintro tenths hundredths after rfl -
      exact absurd isDigit (by decide)
  | case5 digits character later notTime isDigit ih =>
      have noDigit : character.isDigit = false := by simpa using isDigit
      rw [List.cons_append, maskTimesAfter_cons digits _ noDigit, ih, List.append_assoc,
        List.cons_append]
      intro tenths hundredths after isPoint equal
      -- a time that is not there without the line feed would have to hold it
      match later, equal with
      | [], equal => cases equal; rfl
      | [_], equal => cases equal; simp
      | [_, _], equal => simp at equal
      | _ :: _ :: _ :: _, equal => cases equal; exact absurd rfl (notTime _ _ _ isPoint)

private theorem mem_maskTimesAfter {digits text : List Char}
    (member : character ∈ maskTimesAfter digits text) :
    character ∈ digits ∨ character ∈ text ∨ character ∈ anyTime := by
  fun_induction maskTimesAfter digits text with
  | case1 => exact .inl member
  | case2 digits tenths hundredths later isTime ih =>
      rcases List.mem_append.mp member with inTime | inRest
      · exact .inr (.inr inTime)
      · rcases ih inRest with inDigits | inText | inTime
        · cases inDigits
        · exact .inr (.inl (by simp [inText]))
        · exact .inr (.inr inTime)
  | case3 digits tenths hundredths later isTime ih => grind
  | case4 digits head later notTime isDigit ih => grind
  | case5 digits head later notTime isDigit ih => grind

private theorem OneLine.maskTimes (oneLine : OneLine line) : OneLine (maskTimes line) := by
  have noFeed : '\n' ∉ anyTime := by decide
  have noReturn : '\r' ∉ anyTime := by decide
  refine ⟨fun member => ?_, fun member => ?_⟩
  · rcases mem_maskTimesAfter member with inDigits | inLine | inTime
    · cases inDigits
    · exact oneLine.1 inLine
    · exact noFeed inTime
  · rcases mem_maskTimesAfter member with inDigits | inLine | inTime
    · cases inDigits
    · exact oneLine.2 inLine
    · exact noReturn inTime

private theorem maskTimes_unlines (parts : List (List Char)) :
    maskTimes (unlines parts) = unlines (parts.map maskTimes) := by
  induction parts with
  | nil => rfl
  | cons line later ih =>
      rw [unlines_cons, maskTimes, maskTimesAfter_append_feed, List.map_cons, unlines_cons, ← ih]
      rfl

/-- Lines that are written one after another are read back with the times in each of them replaced. -/
theorem lines_maskTimes_unlines {parts : List (List Char)} (each : ∀ line ∈ parts, OneLine line) :
    lines (maskTimes (unlines parts)) = parts.map maskTimes := by
  rw [maskTimes_unlines, lines_unlines]
  intro line member
  obtain ⟨original, isPart, rfl⟩ := List.mem_map.mp member
  exact (each original isPart).maskTimes

end TimedWaits.Text
