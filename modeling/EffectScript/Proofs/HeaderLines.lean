import EffectScript.Proofs.TokenCover
import EffectScript.Script.Compile

/-!
# What the header leaves of a source

Header lines are blanked, all others stay as they are, so every character that stays keeps its place
and the rest of its line.  A header line that declares a slider wrongly is refused by its number,
and it is the first such line.
-/

namespace EffectScript

open EffectScript.Language

/-! ### Lines and places -/

namespace Text

/-- What stands in a text from a place on, up to the end of its line. -/
def lineFrom (text : List Char) (place : Position) : List Char :=
  ((lines text).getD (place.line - 1) []).drop (place.column - 1)

theorem lines_feed (rest : List Char) : lines ('\n' :: rest) = ['\n'] :: lines rest := by
  rw [lines, if_pos rfl]

theorem lines_cons {c : Char} (other : c ≠ '\n') (rest : List Char) :
    lines (c :: rest) = (c :: (lines rest).headD []) :: (lines rest).tail := by
  rw [lines, if_neg other]
  cases lines rest with
  | nil => rfl
  | cons line more => rfl

/-- The first line of a text ends with the first line feed. -/
theorem headD_lines_append {line : List Char} (whole : '\n' ∉ line) (rest : List Char) :
    (lines (line ++ '\n' :: rest)).headD [] = line ++ ['\n'] := by
  induction line with
  | nil =>
    rw [List.nil_append, lines_feed]
    rfl
  | cons c line ih =>
    obtain ⟨other, later⟩ := List.ne_and_not_mem_of_not_mem_cons whole
    rw [List.cons_append, lines_cons other.symm, ih later]
    rfl

end Text

theorem lastLineLength_of_not_mem {line : List Char} (whole : '\n' ∉ line) :
    lastLineLength line = line.length := by
  have all : line.reverse.takeWhile (· != '\n') = line.reverse := by
    rw [List.takeWhile_eq_self_iff]
    intro c member
    rw [bne_iff_ne]
    rintro rfl
    exact whole (List.mem_reverse.1 member)
  rw [lastLineLength, all, List.length_reverse]

theorem lastLineLength_append_feed (line text : List Char) :
    lastLineLength (line ++ '\n' :: text) = lastLineLength text := by
  rw [lastLineLength, lastLineLength, List.reverse_append, List.reverse_cons, List.append_assoc,
    List.takeWhile_append]
  split
  · rename_i all
    rw [List.singleton_append, List.takeWhile_cons_of_neg (by decide), List.append_nil, all]
  · rfl

theorem lastLineLength_cons {text : List Char} (feeds : '\n' ∈ text) (c : Char) :
    lastLineLength (c :: text) = lastLineLength text := by
  obtain ⟨line, rest, rfl⟩ := List.append_of_mem feeds
  rw [lastLineLength_append_feed, ← List.cons_append, lastLineLength_append_feed]

/-- A line in front moves a place one line on. -/
theorem placeAfter_append_feed {line : List Char} (whole : '\n' ∉ line) (text : List Char) :
    placeAfter (line ++ '\n' :: text) =
      ⟨(placeAfter text).line + 1, (placeAfter text).column⟩ := by
  have before := List.count_eq_zero.2 whole
  rw [placeAfter, placeAfter, lastLineLength_append_feed, List.count_append, before,
    List.count_cons_self]
  simp only [Nat.zero_add, Nat.add_assoc]

/-- The place behind a text leads back to the line that goes on there. -/
theorem lineFrom_placeAfter (before rest : List Char) :
    Text.lineFrom (before ++ rest) (placeAfter before) = (Text.lines rest).headD [] := by
  simp only [Text.lineFrom, placeAfter, Nat.add_sub_cancel_left]
  induction before with
  | nil => cases lines : Text.lines rest <;> simp [lines, lastLineLength]
  | cons c before ih =>
    by_cases feed : c = '\n'
    · subst feed
      have same : lastLineLength ('\n' :: before) = lastLineLength before :=
        lastLineLength_append_feed [] before
      rw [List.cons_append, Text.lines_feed, List.count_cons_self, List.getD_cons_succ, same, ih]
    · rw [List.cons_append, Text.lines_cons feed, List.count_cons_of_ne feed]
      -- The first line of the longer text is one character longer, the others are the same.
      by_cases feeds : '\n' ∈ before
      · obtain ⟨index, count⟩ := Nat.exists_eq_succ_of_ne_zero (List.count_pos_iff.2 feeds).ne'
        rw [count] at ih ⊢
        rw [lastLineLength_cons feeds, List.getD_cons_succ, ← ih]
        cases Text.lines (before ++ rest) <;> rfl
      · have none : '\n' ∉ c :: before := List.not_mem_cons_of_ne_of_not_mem (Ne.symm feed) feeds
        rw [List.count_eq_zero.2 feeds, lastLineLength_of_not_mem feeds] at ih
        rw [List.count_eq_zero.2 feeds, lastLineLength_of_not_mem none, List.length_cons,
          List.getD_cons_zero, List.drop_succ_cons, ← ih]
        cases Text.lines (before ++ rest) <;> rfl

/-! ### Blanked lines -/

/-- A source and a body in which some of its lines are blanked: of a blanked line, only the line
feed remains. -/
inductive Blanks : List Char → List Char → Prop
  | whole (text : List Char) : Blanks text text
  | keep {line source body : List Char} : '\n' ∉ line → Blanks source body →
    Blanks (line ++ '\n' :: source) (line ++ '\n' :: body)
  | blank {line source body : List Char} : '\n' ∉ line → Blanks source body →
    Blanks (line ++ '\n' :: source) ('\n' :: body)
  | last {line : List Char} : '\n' ∉ line → Blanks line []

namespace Blanks

variable {source body : List Char}

theorem count_eq (blanks : Blanks source body) : body.count '\n' = source.count '\n' := by
  induction blanks with
  | whole text => rfl
  | keep whole _ ih => simp [ih]
  | blank whole _ ih => simp [ih, List.count_eq_zero.2 whole]
  | last whole => simp [List.count_eq_zero.2 whole]

theorem lastLineLength_le (blanks : Blanks source body) :
    lastLineLength body ≤ lastLineLength source := by
  induction blanks with
  | whole text => exact Nat.le_refl _
  | keep whole _ ih => rwa [lastLineLength_append_feed, lastLineLength_append_feed]
  | @blank line source body whole _ ih =>
    rw [lastLineLength_append_feed]
    exact (lastLineLength_append_feed [] body).trans_le ih
  | last whole => exact Nat.zero_le _

theorem exists_of_feed_eq {text before rest : List Char} {c : Char} (other : c ≠ '\n')
    (cut : '\n' :: text = before ++ c :: rest) :
    ∃ later, before = '\n' :: later ∧ text = later ++ c :: rest := by
  rcases List.cons_eq_append_iff.1 cut with ⟨_, first⟩ | later
  · exact absurd (List.cons.inj first).1 other
  · exact later

/-- A character of the body other than a line feed stands in the source at the same place, with the
same rest of its line behind it. -/
theorem stays (blanks : Blanks source body) {before rest : List Char} {c : Char} (other : c ≠ '\n')
    (cut : body = before ++ c :: rest) :
    ∃ front back, source = front ++ c :: back ∧ placeAfter front = placeAfter before ∧
      (Text.lines (c :: back)).headD [] = (Text.lines (c :: rest)).headD [] := by
  induction blanks generalizing before with
  | whole text => exact ⟨before, rest, cut, rfl, rfl⟩
  | @keep line source body whole _ ih =>
    rcases List.append_eq_append_iff.1 cut with ⟨later, rfl, after⟩ | ⟨more, rfl, after⟩
    · obtain ⟨later, rfl, below⟩ := exists_of_feed_eq other after
      obtain ⟨front, back, rfl, place, same⟩ := ih below
      refine ⟨line ++ '\n' :: front, back, by simp, ?_, same⟩
      rw [placeAfter_append_feed whole, placeAfter_append_feed whole, place]
    · rcases List.cons_eq_append_iff.1 after with ⟨_, first⟩ | ⟨more, rfl, rfl⟩
      · exact absurd (List.cons.inj first).1.symm other
      · have line : '\n' ∉ c :: more := fun member => whole (List.mem_append_right before member)
        refine ⟨before, more ++ '\n' :: source, by simp, rfl, ?_⟩
        rw [← List.cons_append, ← List.cons_append, Text.headD_lines_append line,
          Text.headD_lines_append line]
  | @blank line source body whole _ ih =>
    obtain ⟨later, rfl, below⟩ := exists_of_feed_eq other cut
    obtain ⟨front, back, rfl, place, same⟩ := ih below
    refine ⟨line ++ '\n' :: front, back, by simp, ?_, same⟩
    have blanked := placeAfter_append_feed List.not_mem_nil later
    rw [List.nil_append] at blanked
    rw [placeAfter_append_feed whole, blanked, place]
  | last whole => simp at cut

end Blanks

/-! ### One header line -/

namespace Script

/-- A line at which the header ends: blanks aside, it begins with an at sign. -/
def EndsHeader (line : List Char) : Prop :=
  (Text.trim line).head? = some '@'

/-- A line declares a slider, and the declaration is refused with a cause. -/
def Refuses (lineNumber : Nat) (line : List Char) (cause : HeaderError) : Prop :=
  ∃ key value, splitKey? (Text.trim line) = some (key, value) ∧ isSliderKey key = true ∧
    Slider.ofLine lineNumber (Text.trim line) = .error cause

theorem readField_error {lineNumber : Nat} {field : SliderField} {text : List Char}
    {cause : HeaderError} (refused : readField lineNumber field text = .error cause) :
    cause.line = lineNumber := by
  unfold readField at refused
  dsimp only at refused
  split at refused
  · contradiction
  · obtain rfl := Except.error.inj refused
    rfl

theorem readStep_error {lineNumber : Nat} {text : List Char} {cause : HeaderError}
    (refused : readStep lineNumber text = .error cause) : cause.line = lineNumber := by
  unfold readStep at refused
  split at refused
  · contradiction
  · exact readField_error refused

/-- A sequence fails in its first part or in the next. -/
theorem bind_error {ε α β : Type} {first : Except ε α} {next : α → Except ε β} {cause : ε}
    (fails : first >>= next = .error cause) :
    first = .error cause ∨ ∃ value, next value = .error cause := by
  cases first with
  | error early =>
    obtain rfl := Except.error.inj fails
    exact .inl rfl
  | ok value => exact .inr ⟨value, fails⟩

/-- Every cause for which a declaration is refused names its line. -/
theorem Slider.ofLine_error {lineNumber : Nat} {line : List Char} {cause : HeaderError}
    (refused : Slider.ofLine lineNumber line = .error cause) : cause.line = lineNumber := by
  unfold Slider.ofLine at refused
  split at refused
  · obtain rfl := Except.error.inj refused
    rfl
  · dsimp only at refused
    split at refused
    · obtain rfl := Except.error.inj refused
      rfl
    split at refused
    · obtain rfl := Except.error.inj refused
      rfl
    rcases bind_error refused with step | ⟨_, refused⟩
    · exact readStep_error step
    rcases bind_error refused with initial | ⟨_, refused⟩
    · exact readField_error initial
    rcases bind_error refused with least | ⟨_, refused⟩
    · exact readField_error least
    rcases bind_error refused with greatest | ⟨_, refused⟩
    · exact readField_error greatest
    · contradiction

theorem isSliderKey_of_ofList_eq {key : List Char} (slides : isSliderKey key = true)
    {name : String} (same : String.ofList key = name) : isSliderKey name.toList = true := by
  rw [← same, String.toList_ofList, slides]

/-- A line with a slider key puts in the slider that is read from it. -/
theorem Info.value_withLine_of_slider (info : Info) (lineNumber : Nat) (line : List Char)
    {key : List Char} (slides : isSliderKey key = true) (value : List Char) :
    (info.withLine lineNumber line key value).run.value =
      (Slider.ofLine lineNumber line).map fun slider =>
        { info with sliders := insertSlider slider info.sliders } := by
  unfold withLine
  dsimp only
  split
  iterate 5
    rename_i same
    exact absurd (isSliderKey_of_ofList_eq slides same) (by decide)
  rw [if_pos slides]
  cases Slider.ofLine lineNumber line <;> rfl

/-- A line with another key is taken, and leaves the sliders. -/
theorem Info.value_withLine_of_other (info : Info) (lineNumber : Nat) (line : List Char)
    {key : List Char} (other : isSliderKey key = false) (value : List Char) :
    ∃ next, (info.withLine lineNumber line key value).run.value = .ok next ∧
      next.sliders = info.sliders := by
  unfold withLine
  dsimp only
  split
  iterate 5
    exact ⟨_, rfl, rfl⟩
  rw [if_neg (Bool.eq_false_iff.1 other)]
  exact ⟨_, rfl, rfl⟩

/-- A header line is refused exactly for the slider that it declares. -/
theorem Info.withLine_cases (info : Info) (lineNumber : Nat) (line key value : List Char) :
    (∃ cause, isSliderKey key = true ∧ Slider.ofLine lineNumber line = .error cause ∧
      (info.withLine lineNumber line key value).run.value = .error cause) ∨
    (¬∃ cause, isSliderKey key = true ∧ Slider.ofLine lineNumber line = .error cause) ∧
      ∃ next, (info.withLine lineNumber line key value).run.value = .ok next := by
  by_cases slides : isSliderKey key = true
  · rw [info.value_withLine_of_slider lineNumber line slides]
    cases Slider.ofLine lineNumber line with
    | error cause => exact .inl ⟨cause, slides, rfl, rfl⟩
    | ok slider => exact .inr ⟨by simp, _, rfl⟩
  · obtain ⟨next, taken, _⟩ :=
      info.value_withLine_of_other lineNumber line (Bool.eq_false_iff.2 slides) value
    exact .inr ⟨by simp [slides], next, taken⟩

theorem value_run_bind {ε α β : Type} (first : ExceptT ε Logged α) (next : α → ExceptT ε Logged β) :
    (first >>= next).run.value =
      match first.run.value with
      | .ok value => (next value).run.value
      | .error cause => .error cause := by
  rw [ExceptT.run_bind, Logged.value_bind]
  cases first.run.value with
  | ok value => rfl
  | error cause => rfl

theorem value_run_behind (below : ExceptT HeaderError Logged (Info × List Char))
    (finish : Info → Info) (left : List Char) :
    (below >>= fun read => pure (finish read.1, left ++ read.2)).run.value =
      below.run.value.map fun read => (finish read.1, left ++ read.2) := by
  rw [value_run_bind]
  cases below.run.value with
  | ok read => rfl
  | error cause => rfl

instance (line : List Char) : Decidable (EndsHeader line) :=
  inferInstanceAs (Decidable (_ = _))

/-- A line declares something, by the key with which it begins. -/
def HasKey (line : List Char) : Prop :=
  (splitKey? (Text.trim line)).isSome = true

instance (line : List Char) : Decidable (HasKey line) :=
  inferInstanceAs (Decidable (_ = _))

/-- What the body has in place of a header line: the line feed of a line with a key. -/
def keptOf (line : List Char) : List Char :=
  if HasKey line then lineFeedOf line else line

theorem keptOf_cases (line : List Char) : keptOf line = line ∨ keptOf line = lineFeedOf line := by
  unfold keptOf
  split
  · exact .inr rfl
  · exact .inl rfl

theorem readLines_of_ends {line : List Char} (ends : EndsHeader line) (info : Info)
    (lineNumber : Nat) (rest : List (List Char)) :
    (readLines info lineNumber (line :: rest)).run.value = .ok (info, (line :: rest).flatten) := by
  rw [readLines]
  dsimp only
  rw [if_pos (beq_iff_eq.2 ends)]
  rfl

/-- A line inside the header is refused, or what is left of it goes in front of what is left of the
lines below. -/
theorem readLines_of_goesOn {line : List Char} (goesOn : ¬EndsHeader line) (info : Info)
    (lineNumber : Nat) :
    (∃ cause, Refuses lineNumber line cause ∧
      ∀ rest, (readLines info lineNumber (line :: rest)).run.value = .error cause) ∨
    (¬∃ cause, Refuses lineNumber line cause) ∧
      ∃ (next : Info) (finish : Info → Info), ∀ rest,
        (readLines info lineNumber (line :: rest)).run.value =
          (readLines next (lineNumber + 1) rest).run.value.map fun read =>
            (finish read.1, keptOf line ++ read.2) := by
  have inside : ¬((Text.trim line).head? == some '@') = true :=
    fun ends => goesOn (beq_iff_eq.1 ends)
  cases found : splitKey? (Text.trim line) with
  | none =>
    have kept : keptOf line = line := by simp [keptOf, HasKey, found]
    have accepted : ¬∃ cause, Refuses lineNumber line cause := by
      rintro ⟨cause, key, value, split, _⟩
      exact nomatch split.symm.trans found
    refine .inr ⟨accepted, info, id, fun rest => ?_⟩
    rw [readLines, kept]
    dsimp only
    rw [if_neg inside, found]
    exact value_run_behind _ id line
  | some pair =>
    obtain ⟨key, value⟩ := pair
    have kept : keptOf line = lineFeedOf line := by simp [keptOf, HasKey, found]
    have refuses cause : Refuses lineNumber line cause ↔ isSliderKey key = true ∧
        Slider.ofLine lineNumber (Text.trim line) = .error cause := by
      simp [Refuses, found]
    rcases info.withLine_cases lineNumber (Text.trim line) key value with
      ⟨cause, slides, wrong, refused⟩ | ⟨accepted, next, taken⟩
    · refine .inl ⟨cause, (refuses cause).2 ⟨slides, wrong⟩, fun rest => ?_⟩
      rw [readLines]
      dsimp only
      rw [if_neg inside, found]
      dsimp only
      rw [value_run_bind, refused]
    · refine .inr ⟨fun ⟨cause, refused⟩ => accepted ⟨cause, (refuses cause).1 refused⟩,
        next, (·.withPin key value), fun rest => ?_⟩
      rw [readLines, kept]
      dsimp only
      rw [if_neg inside, found]
      dsimp only
      rw [value_run_bind, taken]
      exact value_run_behind _ (·.withPin key value) (lineFeedOf line)

/-- What reading makes of a line in front: the header ends there, the line is refused, or what is
read from the lines below goes behind the line or its line feed. -/
inductive LineRead (info : Info) (lineNumber : Nat) (line : List Char) (rest : List (List Char))
    (outcome : Except HeaderError (Info × List Char)) : Prop
  | ends : EndsHeader line → outcome = .ok (info, line ++ rest.flatten) →
    LineRead info lineNumber line rest outcome
  | refused {cause : HeaderError} : ¬EndsHeader line → Refuses lineNumber line cause →
    outcome = .error cause → LineRead info lineNumber line rest outcome
  | taken (next : Info) (finish : Info → Info) (left : List Char) : ¬EndsHeader line →
    (¬∃ cause, Refuses lineNumber line cause) → left = line ∨ left = lineFeedOf line →
    outcome = ((readLines next (lineNumber + 1) rest).run.value.map fun read =>
      (finish read.1, left ++ read.2)) →
    LineRead info lineNumber line rest outcome

theorem readLines_cons (info : Info) (lineNumber : Nat) (line : List Char)
    (rest : List (List Char)) :
    LineRead info lineNumber line rest (readLines info lineNumber (line :: rest)).run.value := by
  by_cases ends : EndsHeader line
  · exact .ends ends (readLines_of_ends ends info lineNumber rest)
  · rcases readLines_of_goesOn ends info lineNumber with
      ⟨cause, refuses, refused⟩ | ⟨accepted, next, finish, taken⟩
    · exact .refused ends refuses (refused rest)
    · exact .taken next finish (keptOf line) ends accepted (keptOf_cases line) (taken rest)

/-- What goes behind a line that was read: the lines below as they are, or what was read of them. -/
theorem readLines_cons_ok {info last : Info} {lineNumber : Nat} {line body : List Char}
    {rest : List (List Char)}
    (read : (readLines info lineNumber (line :: rest)).run.value = .ok (last, body)) :
    body = line ++ rest.flatten ∨
      ∃ left next below after, (left = line ∨ left = lineFeedOf line) ∧ body = left ++ below ∧
        (readLines next (lineNumber + 1) rest).run.value = .ok (after, below) := by
  cases readLines_cons info lineNumber line rest with
  | ends _ outcome => exact .inl (Prod.mk.inj (Except.ok.inj (read.symm.trans outcome))).2
  | refused _ _ outcome => exact nomatch outcome.symm.trans read
  | taken next _ left _ _ lefts outcome =>
    rw [read] at outcome
    cases below : (readLines next (lineNumber + 1) rest).run.value with
    | error cause =>
      rw [below] at outcome
      contradiction
    | ok result =>
      rw [below] at outcome
      exact .inr ⟨left, next, result.2, result.1, lefts,
        (Prod.mk.inj (Except.ok.inj outcome)).2, below⟩

/-! ### All lines -/

/-- A text cut behind each of its line feeds. -/
inductive Cut : List (List Char) → Prop
  | nil : Cut []
  | last {line : List Char} : '\n' ∉ line → Cut [line]
  | cons {line : List Char} {rest : List (List Char)} : '\n' ∉ line → Cut rest →
    Cut ((line ++ ['\n']) :: rest)

theorem cut_lines (text : List Char) : Cut (Text.lines text) := by
  induction text with
  | nil => exact .nil
  | cons c text ih =>
    by_cases feed : c = '\n'
    · subst feed
      rw [Text.lines_feed]
      exact .cons List.not_mem_nil ih
    · rw [Text.lines_cons feed]
      have longer {line : List Char} (whole : '\n' ∉ line) : '\n' ∉ c :: line :=
        List.not_mem_cons_of_ne_of_not_mem (Ne.symm feed) whole
      generalize Text.lines text = lines at ih
      cases ih with
      | nil => exact .last (longer List.not_mem_nil)
      | last whole => exact .last (longer whole)
      | cons whole cut => exact .cons (longer whole) cut

theorem lineFeedOf_of_not_mem {line : List Char} (whole : '\n' ∉ line) : lineFeedOf line = [] := by
  rw [lineFeedOf, if_neg]
  intro ends
  exact whole (List.mem_of_getLast? (beq_iff_eq.1 ends))

theorem lineFeedOf_append (line : List Char) : lineFeedOf (line ++ ['\n']) = ['\n'] := by
  simp [lineFeedOf]

/-- The body has the lines of the source, with some of them blanked. -/
theorem Cut.blanks {lines : List (List Char)} (cut : Cut lines) {info last : Info}
    {lineNumber : Nat} {body : List Char}
    (read : (readLines info lineNumber lines).run.value = .ok (last, body)) :
    Blanks lines.flatten body := by
  induction cut generalizing info last lineNumber body with
  | nil =>
    obtain ⟨_, rfl⟩ := Prod.mk.inj (Except.ok.inj read)
    exact .whole []
  | @last line whole =>
    rcases readLines_cons_ok read with rfl | ⟨_, next, below, after, left, rfl, rest⟩
    · exact .whole _
    · obtain ⟨_, rfl⟩ := Prod.mk.inj (Except.ok.inj rest)
      rcases left with rfl | rfl
      · exact .whole _
      · rw [lineFeedOf_of_not_mem whole]
        simpa using Blanks.last whole
  | @cons line rest whole _ ih =>
    rcases readLines_cons_ok read with rfl | ⟨_, next, below, after, left, rfl, rest⟩
    · exact .whole _
    · rw [List.flatten_cons, List.append_assoc]
      rcases left with rfl | rfl
      · rw [List.append_assoc]
        exact .keep whole (ih rest)
      · rw [lineFeedOf_append]
        exact .blank whole (ih rest)

/-- The first refused line, counted from `start`: no line up to it ends the header, and no line
before it is refused. -/
structure FirstRefused (start : Nat) (lines : List (List Char)) (index : Nat)
    (cause : HeaderError) : Prop where
  refused : ∃ line, lines[index]? = some line ∧ Refuses (start + index) line cause
  inside : ∀ other ≤ index, ∀ line, lines[other]? = some line → ¬EndsHeader line
  first : ∀ other < index, ∀ line, lines[other]? = some line →
    ¬∃ cause, Refuses (start + other) line cause

/-- A line that is read goes in front of lines of which one is refused. -/
theorem FirstRefused.cons {start index : Nat} {line : List Char} {lines : List (List Char)}
    {cause : HeaderError} (below : FirstRefused (start + 1) lines index cause)
    (goesOn : ¬EndsHeader line) (accepted : ¬∃ cause, Refuses start line cause) :
    FirstRefused start (line :: lines) (index + 1) cause where
  refused := by
    obtain ⟨found, atIndex, refuses⟩ := below.refused
    exact ⟨found, atIndex, by rwa [Nat.add_assoc, Nat.add_comm 1] at refuses⟩
  inside other upTo found atOther := by
    cases other with
    | zero =>
      obtain rfl := Option.some.inj atOther
      exact goesOn
    | succ other => exact below.inside other (Nat.le_of_succ_le_succ upTo) found atOther
  first other before found atOther := by
    cases other with
    | zero =>
      obtain rfl := Option.some.inj atOther
      exact accepted
    | succ other =>
      have later := below.first other (Nat.lt_of_succ_lt_succ before) found atOther
      rwa [Nat.add_assoc, Nat.add_comm 1] at later

theorem exists_firstRefused {lines : List (List Char)} {info : Info} {lineNumber : Nat}
    {cause : HeaderError}
    (read : (readLines info lineNumber lines).run.value = .error cause) :
    ∃ index, FirstRefused lineNumber lines index cause := by
  induction lines generalizing info lineNumber with
  | nil => exact nomatch read
  | cons line rest ih =>
    cases readLines_cons info lineNumber line rest with
    | ends _ outcome => exact nomatch outcome.symm.trans read
    | refused goesOn refuses outcome =>
      obtain rfl := Except.error.inj (outcome.symm.trans read)
      refine ⟨0, ⟨line, rfl, refuses⟩, ?_, fun _ before => nomatch before⟩
      intro other upTo found atOther
      obtain rfl := Nat.le_zero.1 upTo
      obtain rfl := Option.some.inj atOther
      exact goesOn
    | taken next _ _ goesOn accepted _ outcome =>
      rw [read] at outcome
      cases below : (readLines next (lineNumber + 1) rest).run.value with
      | ok result =>
        rw [below] at outcome
        contradiction
      | error later =>
        rw [below] at outcome
        obtain rfl := Except.error.inj outcome
        obtain ⟨index, refused⟩ := ih below
        exact ⟨index + 1, refused.cons goesOn accepted⟩

/-! ### Sources -/

theorem value_run_readHeader (source : String) :
    (readHeader source).run.value =
      (readLines .empty 1 (Text.lines source.toList)).run.value.map fun read =>
        (read.1, String.ofList read.2) := by
  rw [readHeader, value_run_bind]
  cases (readLines .empty 1 (Text.lines source.toList)).run.value with
  | ok read => rfl
  | error cause => rfl

/-- The body of a source is the source with some of its lines blanked. -/
theorem blanks_of_readHeader {source body : String} {info : Info}
    (read : (readHeader source).run.value = .ok (info, body)) :
    Blanks source.toList body.toList := by
  rw [value_run_readHeader] at read
  cases lines : (readLines .empty 1 (Text.lines source.toList)).run.value with
  | error cause =>
    rw [lines] at read
    contradiction
  | ok result =>
    rw [lines] at read
    obtain ⟨_, rfl⟩ := Prod.mk.inj (Except.ok.inj read)
    have blanks := (cut_lines source.toList).blanks lines
    rwa [Text.flatten_lines, ← String.toList_ofList (l := result.2)] at blanks

theorem firstRefused_of_readHeader {source : String} {cause : HeaderError}
    (read : (readHeader source).run.value = .error cause) :
    ∃ index, FirstRefused 1 (Text.lines source.toList) index cause := by
  rw [value_run_readHeader] at read
  cases lines : (readLines .empty 1 (Text.lines source.toList)).run.value with
  | ok result =>
    rw [lines] at read
    contradiction
  | error early =>
    rw [lines] at read
    obtain rfl := Except.error.inj read
    exact exists_firstRefused lines

end Script

end EffectScript
