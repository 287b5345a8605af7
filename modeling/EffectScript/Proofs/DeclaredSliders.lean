import EffectScript.Machine.Interpreter
import EffectScript.Proofs.PrimaryReading
import EffectScript.Proofs.SliderLines

/-!
# Declared sliders

The sliders of a compiled script are those that its header lines declare, each as the last of its
lines has it, in increasing order.  Installing the script sets each of them to its initial value and
all others to zero, and the number behind the word `slider` counts the sliders alike in header lines
and in names.
-/

namespace EffectScript

open EffectScript.Language

namespace Script

/-! ### Sliders in increasing order -/

/-- The sliders stand in increasing order, and none of them twice. -/
def Ordered (sliders : List Slider) : Prop :=
  sliders.Pairwise fun first second => first.index < second.index

/-- Insertion puts a slider between those below and those above, in place of one that is there. -/
theorem insertSlider_cases (slider : Slider) {sliders : List Slider} (ordered : Ordered sliders) :
    ∃ below above, insertSlider slider sliders = below ++ slider :: above ∧
      (∀ other ∈ below, other.index < slider.index) ∧
      (∀ other ∈ above, slider.index < other.index) ∧
      (sliders = below ++ above ∨
        ∃ earlier, earlier.index = slider.index ∧ sliders = below ++ earlier :: above) := by
  induction sliders with
  | nil => exact ⟨[], [], rfl, by simp, by simp, .inl rfl⟩
  | cons first rest ih =>
    obtain ⟨behind, ordered⟩ := List.pairwise_cons.1 ordered
    rw [insertSlider]
    split
    · rename_i before
      refine ⟨[], first :: rest, rfl, by simp, ?_, .inl rfl⟩
      rintro other (_ | ⟨_, member⟩)
      · exact before
      · exact before.trans (behind other member)
    · rename_i notBefore
      split
      · rename_i same
        have same := beq_iff_eq.1 same
        exact ⟨[], rest, rfl, by simp, fun other member => same ▸ behind other member,
          .inr ⟨first, same.symm, rfl⟩⟩
      · rename_i other
        have after : first.index < slider.index := by
          rw [beq_iff_eq] at other
          omega
        obtain ⟨below, above, inserted, isBelow, isAbove, places⟩ := ih ordered
        refine ⟨first :: below, above, by rw [inserted]; rfl, ?_, isAbove, ?_⟩
        · rintro other (_ | ⟨_, member⟩)
          · exact after
          · exact isBelow other member
        · rcases places with rfl | ⟨earlier, same, rfl⟩
          · exact .inl rfl
          · exact .inr ⟨earlier, same, rfl⟩

theorem Ordered.insertSlider {sliders : List Slider} (ordered : Ordered sliders)
    (slider : Slider) : Ordered (insertSlider slider sliders) := by
  obtain ⟨below, above, inserted, isBelow, isAbove, places⟩ := insertSlider_cases slider ordered
  have others : Ordered (below ++ above) := by
    rcases places with rfl | ⟨earlier, _, rfl⟩
    · exact ordered
    · exact ordered.sublist (List.sublist_cons_self earlier above |>.append_left below)
  obtain ⟨lower, upper, _⟩ := List.pairwise_append.1 others
  rw [inserted]
  refine List.pairwise_append.2 ⟨lower, List.pairwise_cons.2 ⟨isAbove, upper⟩, ?_⟩
  rintro first lower second (_ | ⟨_, upper⟩)
  · exact isBelow first lower
  · exact (isBelow first lower).trans (isAbove second upper)

/-- An inserted slider is the only one with its index, and all others stay. -/
theorem mem_insertSlider {slider other : Slider} {sliders : List Slider}
    (ordered : Ordered sliders) :
    other ∈ insertSlider slider sliders ↔
      other = slider ∨ other ∈ sliders ∧ other.index ≠ slider.index := by
  obtain ⟨below, above, inserted, isBelow, isAbove, places⟩ := insertSlider_cases slider ordered
  have apart : other ∈ below ∨ other ∈ above → other.index ≠ slider.index := by
    rintro (lower | upper)
    · exact (isBelow other lower).ne
    · exact (isAbove other upper).ne'
  have others : other ∈ sliders ∧ other.index ≠ slider.index ↔ other ∈ below ∨ other ∈ above := by
    rcases places with rfl | ⟨earlier, same, rfl⟩
    · rw [List.mem_append]
      exact and_iff_left_of_imp apart
    · constructor
      · rintro ⟨member, different⟩
        rcases List.mem_append.1 member with lower | upper
        · exact .inl lower
        · rcases List.mem_cons.1 upper with rfl | upper
          · exact absurd same different
          · exact .inr upper
      · intro member
        refine ⟨?_, apart member⟩
        rw [List.mem_append, List.mem_cons]
        exact member.imp_right .inr
  rw [inserted, others, List.mem_append, List.mem_cons, or_left_comm]

/-! ### Lines that declare -/

/-- A line declares the slider with a number. -/
def Names (line : List Char) (number : Nat) : Prop :=
  ∃ digits value, splitKey? (Text.trim line) = some (sliderWord ++ digits, value) ∧
    IsNumber digits ∧ Number.digitsValue digits = number

/-- A header line at a place declares the slider with a number. -/
structure Declares (lines : List (List Char)) (place number : Nat) : Prop where
  inside : ∀ other ≤ place, ¬EndsHeader (lines.getD other [])
  names : Names (lines.getD place []) number

/-- A slider is as it is read from the last header line that declares it; the lines are counted
from `start`. -/
def LastDeclared (start : Nat) (lines : List (List Char)) (slider : Slider) : Prop :=
  ∃ place, Declares lines place (slider.index + 1) ∧
    (∀ later, place < later → ¬Declares lines later (slider.index + 1)) ∧
    Slider.ofLine (start + place) (Text.trim (lines.getD place [])) = .ok slider

theorem Names.number_eq {line : List Char} {number other : Nat} (names : Names line number)
    (namesOther : Names line other) : number = other := by
  obtain ⟨digits, value, found, _, rfl⟩ := names
  obtain ⟨_, _, foundOther, _, rfl⟩ := namesOther
  obtain ⟨same, _⟩ := Prod.mk.inj (Option.some.inj (found.symm.trans foundOther))
  rw [List.append_cancel_left same]

theorem declares_zero {line : List Char} (goesOn : ¬EndsHeader line) (rest : List (List Char))
    (number : Nat) : Declares (line :: rest) 0 number ↔ Names line number := by
  refine ⟨fun declares => declares.names, fun names => ⟨fun other upTo => ?_, names⟩⟩
  obtain rfl := Nat.le_zero.1 upTo
  exact goesOn

theorem declares_succ {line : List Char} (goesOn : ¬EndsHeader line) (rest : List (List Char))
    (place number : Nat) :
    Declares (line :: rest) (place + 1) number ↔ Declares rest place number := by
  constructor
  · intro ⟨inside, names⟩
    exact ⟨fun other upTo => inside (other + 1) (Nat.succ_le_succ upTo), names⟩
  · intro ⟨inside, names⟩
    refine ⟨fun other upTo => ?_, names⟩
    cases other with
    | zero => exact goesOn
    | succ other => exact inside other (Nat.le_of_succ_le_succ upTo)

theorem not_declares_of_ends {line : List Char} (ends : EndsHeader line)
    (rest : List (List Char)) (place number : Nat) : ¬Declares (line :: rest) place number :=
  fun declares => declares.inside 0 (Nat.zero_le place) ends

theorem not_declares_nil (place number : Nat) : ¬Declares [] place number := by
  rintro ⟨_, digits, value, found, _⟩
  exact nomatch found

/-- The last declaration is in the lines below, or it is the first line and none below declares
the slider. -/
theorem lastDeclared_cons {line : List Char} (goesOn : ¬EndsHeader line) (start : Nat)
    (rest : List (List Char)) (slider : Slider) :
    LastDeclared start (line :: rest) slider ↔
      LastDeclared (start + 1) rest slider ∨
        (Names line (slider.index + 1) ∧ Slider.ofLine start (Text.trim line) = .ok slider) ∧
          ∀ place, ¬Declares rest place (slider.index + 1) := by
  constructor
  · rintro ⟨_ | place, declares, last, read⟩
    · refine .inr ⟨⟨(declares_zero goesOn rest _).1 declares, read⟩, fun place below => ?_⟩
      exact last (place + 1) (Nat.succ_pos place) ((declares_succ goesOn rest _ _).2 below)
    · refine .inl ⟨place, (declares_succ goesOn rest _ _).1 declares, fun later behind below => ?_,
        by rwa [Nat.add_assoc, Nat.add_comm 1]⟩
      exact last (later + 1) (Nat.succ_lt_succ behind) ((declares_succ goesOn rest _ _).2 below)
  · rintro (⟨place, declares, last, read⟩ | ⟨⟨names, read⟩, last⟩)
    · refine ⟨place + 1, (declares_succ goesOn rest _ _).2 declares, fun later behind below => ?_,
        by rwa [Nat.add_assoc, Nat.add_comm 1] at read⟩
      cases later with
      | zero => exact nomatch behind
      | succ later =>
        exact last later (Nat.lt_of_succ_lt_succ behind) ((declares_succ goesOn rest _ _).1 below)
    · refine ⟨0, (declares_zero goesOn rest _).2 names, fun later behind below => ?_, read⟩
      cases later with
      | zero => exact nomatch behind
      | succ later => exact last later ((declares_succ goesOn rest _ _).1 below)

/-! ### Reading the lines -/

/-- What a line that is read does to the sliders: it keeps them, or puts the slider it declares
in. -/
inductive LineSets (lineNumber : Nat) (line : List Char) (before : List Slider) :
    List Slider → Prop
  | keeps : (∀ number, ¬Names line number) → LineSets lineNumber line before before
  | sets (slider : Slider) : Names line (slider.index + 1) →
    Slider.ofLine lineNumber (Text.trim line) = .ok slider →
    LineSets lineNumber line before (insertSlider slider before)

namespace LineSets

variable {lineNumber : Nat} {line : List Char} {before after : List Slider}

theorem ordered (sets : LineSets lineNumber line before after) (ordered : Ordered before) :
    Ordered after := by
  cases sets with
  | keeps _ => exact ordered
  | sets slider _ _ => exact ordered.insertSlider slider

theorem mem_iff (sets : LineSets lineNumber line before after) (ordered : Ordered before)
    (slider : Slider) :
    slider ∈ after ↔
      (Names line (slider.index + 1) ∧ Slider.ofLine lineNumber (Text.trim line) = .ok slider) ∨
        slider ∈ before ∧ ¬Names line (slider.index + 1) := by
  cases sets with
  | keeps none => simp only [none _, false_and, false_or, not_false_iff, and_true]
  | sets new names read =>
    have newer : slider = new ↔
        Names line (slider.index + 1) ∧ Slider.ofLine lineNumber (Text.trim line) = .ok slider := by
      constructor
      · rintro rfl
        exact ⟨names, read⟩
      · rintro ⟨_, readSlider⟩
        exact Except.ok.inj (readSlider.symm.trans read)
    have other : slider.index ≠ new.index ↔ ¬Names line (slider.index + 1) := by
      refine not_congr ⟨fun same => same ▸ names, fun namesSlider => ?_⟩
      exact Nat.succ.inj (namesSlider.number_eq names)
    rw [mem_insertSlider ordered, newer, other]

/-- A slider that the line declares is there. -/
theorem present (sets : LineSets lineNumber line before after) (ordered : Ordered before)
    {index : Nat} (names : Names line (index + 1)) :
    ∃ slider ∈ after, slider.index = index := by
  cases sets with
  | keeps none => exact absurd names (none _)
  | sets new namesNew _ =>
    exact ⟨new, (mem_insertSlider ordered).2 (.inl rfl), Nat.succ.inj (namesNew.number_eq names)⟩

end LineSets

theorem Info.sliders_withPin (info : Info) (key value : List Char) :
    (info.withPin key value).sliders = info.sliders := by
  unfold withPin
  split <;> rfl

/-- The number of a slider that is read is that of its key. -/
theorem names_of_ofLine {lineNumber : Nat} {line key value : List Char} {slider : Slider}
    (found : splitKey? (Text.trim line) = some (key, value)) (slides : isSliderKey key = true)
    (read : Slider.ofLine lineNumber (Text.trim line) = .ok slider) :
    Names line (slider.index + 1) := by
  obtain ⟨digits, rfl, number⟩ := isSliderKey_iff.1 slides
  obtain ⟨_, texts, taken, reads⟩ := Slider.ofLine_eq_ok_iff.1 read
  refine ⟨digits, value, found, number, ?_⟩
  rw [eq_of_splitKey? found, SliderTexts.ofLine?_eq number] at taken
  rw [reads.index_succ, SliderTexts.number_of_behindColon? taken]

theorem Info.sliders_withLine {info next : Info} {lineNumber : Nat} {line key value : List Char}
    (taken : (info.withLine lineNumber line key value).run.value = .ok next) :
    (isSliderKey key = false ∧ next.sliders = info.sliders) ∨
      isSliderKey key = true ∧ ∃ slider, Slider.ofLine lineNumber line = .ok slider ∧
        next.sliders = insertSlider slider info.sliders := by
  by_cases slides : isSliderKey key = true
  · rw [info.value_withLine_of_slider lineNumber line slides] at taken
    cases read : Slider.ofLine lineNumber line with
    | error cause =>
      rw [read] at taken
      contradiction
    | ok slider =>
      rw [read] at taken
      obtain rfl := Except.ok.inj taken
      exact .inr ⟨slides, slider, rfl, rfl⟩
  · have other := Bool.eq_false_iff.2 slides
    obtain ⟨found, takenOther, same⟩ := info.value_withLine_of_other lineNumber line other value
    obtain rfl := Except.ok.inj (takenOther.symm.trans taken)
    exact .inl ⟨other, same⟩

theorem not_names_of_other {line key value : List Char}
    (found : splitKey? (Text.trim line) = some (key, value)) (other : isSliderKey key = false)
    (number : Nat) : ¬Names line number := by
  rintro ⟨digits, _, foundSlider, isNumber, _⟩
  obtain ⟨rfl, _⟩ := Prod.mk.inj (Option.some.inj (found.symm.trans foundSlider))
  exact Bool.false_ne_true (other.symm.trans (isSliderKey_iff.2 ⟨digits, rfl, isNumber⟩))

/-- A header line sets the sliders, and the sliders of the lines below are left as they are. -/
theorem readLines_cons_sliders {info last : Info} {lineNumber : Nat} {line body : List Char}
    {rest : List (List Char)} (goesOn : ¬EndsHeader line)
    (read : (readLines info lineNumber (line :: rest)).run.value = .ok (last, body)) :
    ∃ next after below, (readLines next (lineNumber + 1) rest).run.value = .ok (after, below) ∧
      last.sliders = after.sliders ∧ LineSets lineNumber line info.sliders next.sliders := by
  have inside : ¬((Text.trim line).head? == some '@') = true :=
    fun ends => goesOn (beq_iff_eq.1 ends)
  have behind {next : Info} {finish : Info → Info} {left : List Char}
      (same : ∀ info, (finish info).sliders = info.sliders)
      (sets : LineSets lineNumber line info.sliders next.sliders)
      (outcome : ((readLines next (lineNumber + 1) rest).run.value.map fun read =>
        (finish read.1, left ++ read.2)) = .ok (last, body)) :
      ∃ next after below, (readLines next (lineNumber + 1) rest).run.value = .ok (after, below) ∧
        last.sliders = after.sliders ∧ LineSets lineNumber line info.sliders next.sliders := by
    cases below : (readLines next (lineNumber + 1) rest).run.value with
    | error cause =>
      rw [below] at outcome
      contradiction
    | ok result =>
      rw [below] at outcome
      obtain ⟨rfl, _⟩ := Prod.mk.inj (Except.ok.inj outcome)
      exact ⟨next, result.1, result.2, below, same result.1, sets⟩
  rw [readLines] at read
  dsimp only at read
  rw [if_neg inside] at read
  split at read
  · rename_i key value found
    rw [value_run_bind] at read
    split at read
    · rename_i next taken
      have outcome := (value_run_behind _ (·.withPin key value) (lineFeedOf line)).symm.trans read
      refine behind (fun info => info.sliders_withPin key value) ?_ outcome
      rcases Info.sliders_withLine taken with ⟨other, same⟩ | ⟨slides, slider, readSlider, same⟩
      · rw [same]
        exact .keeps (not_names_of_other found other)
      · rw [same]
        exact .sets slider (names_of_ofLine found slides readSlider) readSlider
    · contradiction
  · rename_i found
    refine behind (fun _ => rfl) (.keeps ?_) ((value_run_behind _ id line).symm.trans read)
    rintro number ⟨_, _, foundSlider, _⟩
    exact Option.some_ne_none _ (foundSlider.symm.trans found)

/-- The sliders after some lines: in order, each from the last of the lines that declare it, and
each that no line declares as it was. -/
structure Collects (start : Nat) (lines : List (List Char)) (before after : List Slider) :
    Prop where
  ordered : Ordered after
  mem_iff (slider : Slider) : slider ∈ after ↔ LastDeclared start lines slider ∨
    slider ∈ before ∧ ∀ place, ¬Declares lines place (slider.index + 1)
  present {place index : Nat} : Declares lines place (index + 1) →
    ∃ slider ∈ after, slider.index = index

theorem Collects.nothing {start : Nat} {lines : List (List Char)} {sliders : List Slider}
    (none : ∀ place number, ¬Declares lines place number) (ordered : Ordered sliders) :
    Collects start lines sliders sliders where
  ordered := ordered
  mem_iff slider := by
    refine ⟨fun member => .inr ⟨member, fun place => none place _⟩, ?_⟩
    rintro (⟨place, declares, _⟩ | ⟨member, _⟩)
    · exact absurd declares (none place _)
    · exact member
  present declares := absurd declares (none _ _)

theorem forall_not_declares_cons {line : List Char} (goesOn : ¬EndsHeader line)
    (rest : List (List Char)) (number : Nat) :
    (∀ place, ¬Declares (line :: rest) place number) ↔
      ¬Names line number ∧ ∀ place, ¬Declares rest place number := by
  rw [← Nat.and_forall_add_one]
  simp only [declares_zero goesOn, declares_succ goesOn]

/-- A line in front of lines of which the sliders are collected. -/
theorem Collects.cons {start : Nat} {line : List Char} {rest : List (List Char)}
    {before next after : List Slider} (goesOn : ¬EndsHeader line) (ordered : Ordered before)
    (sets : LineSets start line before next) (below : Collects (start + 1) rest next after) :
    Collects start (line :: rest) before after where
  ordered := below.ordered
  mem_iff slider := by
    rw [below.mem_iff, sets.mem_iff ordered, lastDeclared_cons goesOn,
      forall_not_declares_cons goesOn, or_and_right, or_assoc, and_assoc (a := slider ∈ before)]
  present {place index} declares := by
    cases place with
    | zero =>
      have names := (declares_zero goesOn rest _).1 declares
      obtain ⟨slider, member, rfl⟩ := sets.present ordered names
      -- What the line puts in stays, unless a line below declares the same slider again.
      by_cases again : ∃ later, Declares rest later (slider.index + 1)
      · obtain ⟨later, declaresLater⟩ := again
        exact below.present declaresLater
      · exact ⟨slider, (below.mem_iff slider).2 (.inr ⟨member, not_exists.1 again⟩), rfl⟩
    | succ place => exact below.present ((declares_succ goesOn rest _ _).1 declares)

/-- By induction on the lines, what is read of them. -/
theorem collects_of_readLines {lines : List (List Char)} {info last : Info} {lineNumber : Nat}
    {body : List Char} (ordered : Ordered info.sliders)
    (read : (readLines info lineNumber lines).run.value = .ok (last, body)) :
    Collects lineNumber lines info.sliders last.sliders := by
  induction lines generalizing info last lineNumber body with
  | nil =>
    obtain ⟨rfl, _⟩ := Prod.mk.inj (Except.ok.inj read)
    exact .nothing not_declares_nil ordered
  | cons line rest ih =>
    by_cases ends : EndsHeader line
    · rw [readLines_of_ends ends] at read
      obtain ⟨rfl, _⟩ := Prod.mk.inj (Except.ok.inj read)
      exact .nothing (not_declares_of_ends ends rest) ordered
    · obtain ⟨next, after, below, readBelow, same, sets⟩ := readLines_cons_sliders ends read
      rw [same]
      exact .cons ends ordered sets (ih (sets.ordered ordered) readBelow)

theorem LastDeclared.index_lt {start : Nat} {lines : List (List Char)} {slider : Slider}
    (declared : LastDeclared start lines slider) : slider.index < sliderCount := by
  obtain ⟨_, _, _, read⟩ := declared
  exact (Slider.ofLine_eq_ok_iff.1 read).1

/-- Some lines declare exactly the sliders of a header. -/
structure Info.Declared (info : Info) (lines : List (List Char)) : Prop where
  ordered : Ordered info.sliders
  mem_iff (slider : Slider) : slider ∈ info.sliders ↔ LastDeclared 1 lines slider
  exists_iff (index : Nat) :
    (∃ slider ∈ info.sliders, slider.index = index) ↔ ∃ place, Declares lines place (index + 1)

theorem declared_of_readHeader {source body : String} {info : Info}
    (read : (readHeader source).run.value = .ok (info, body)) :
    info.Declared (Text.lines source.toList) := by
  have start : Ordered Info.empty.sliders := List.Pairwise.nil
  have collects := collects_of_readLines start (readLines_of_readHeader read)
  have mem_iff (slider : Slider) :
      slider ∈ info.sliders ↔ LastDeclared 1 (Text.lines source.toList) slider := by
    rw [collects.mem_iff]
    exact or_iff_left fun ⟨member, _⟩ => nomatch member
  refine ⟨collects.ordered, mem_iff, fun index => ⟨?_, fun ⟨_, declares⟩ => ?_⟩⟩
  · rintro ⟨slider, member, rfl⟩
    obtain ⟨place, declares, _⟩ := (mem_iff slider).1 member
    exact ⟨place, declares⟩
  · exact collects.present declares

theorem readHeader_of_compile {source : String} {script : Script}
    (compiled : (compile source).value = .ok script) :
    ∃ body, (readHeader source).run.value = .ok (script.info, body) := by
  unfold compile at compiled
  rw [Logged.value_bind] at compiled
  split at compiled
  · contradiction
  · rename_i info body header
    rw [Logged.value_bind] at compiled
    split at compiled
    · contradiction
    · rw [Logged.value_bind] at compiled
      obtain rfl := Except.ok.inj compiled
      exact ⟨body, header⟩

/-! ### The number of parameters -/

theorem foldl_count_le_iff (sliders : List Slider) (count bound : Nat) :
    sliders.foldl (fun count slider => max count (slider.index + 1)) count ≤ bound ↔
      count ≤ bound ∧ ∀ slider ∈ sliders, slider.index < bound := by
  induction sliders generalizing count with
  | nil => simp
  | cons slider rest ih =>
    rw [List.foldl_cons, ih, Nat.max_le, List.forall_mem_cons, and_assoc]
    rfl

theorem Info.parameterCount_le_iff (info : Info) (bound : Nat) :
    info.parameterCount ≤ bound ↔ ∀ slider ∈ info.sliders, slider.index < bound := by
  rw [parameterCount, foldl_count_le_iff]
  exact and_iff_right (Nat.zero_le bound)

/-- The parameters are counted up to the last declared slider. -/
theorem Info.parameterCount_cases (info : Info) :
    (info.sliders = [] ∧ info.parameterCount = 0) ∨
      ∃ slider ∈ info.sliders, (∀ other ∈ info.sliders, other.index ≤ slider.index) ∧
        info.parameterCount = slider.index + 1 := by
  cases counted : info.parameterCount with
  | zero =>
    have none := (info.parameterCount_le_iff 0).1 counted.le
    exact .inl ⟨List.eq_nil_iff_forall_not_mem.2 fun slider member =>
      Nat.not_lt_zero _ (none slider member), rfl⟩
  | succ last =>
    have upTo := (info.parameterCount_le_iff (last + 1)).1 counted.le
    have more : ¬∀ slider ∈ info.sliders, slider.index < last := by
      rw [← info.parameterCount_le_iff, counted]
      exact Nat.not_succ_le_self last
    simp only [not_forall, exists_prop, Nat.not_lt] at more
    obtain ⟨slider, member, reaches⟩ := more
    obtain rfl := Nat.le_antisymm reaches (Nat.le_of_lt_succ (upTo slider member))
    exact .inr ⟨slider, member, fun other memberOther => Nat.le_of_lt_succ
      (upTo other memberOther), rfl⟩

end Script

/-! ### Initial values -/

namespace Machine

theorem getElem?_foldl_of_not_mem {size : Nat} (entries : List (Nat × Float))
    (sliders : Vector Float size) {index : Nat} (absent : ∀ entry ∈ entries, entry.1 ≠ index) :
    (entries.foldl (fun sliders entry => sliders.setIfInBounds entry.1 entry.2) sliders)[index]? =
      sliders[index]? := by
  induction entries generalizing sliders with
  | nil => rfl
  | cons entry rest ih =>
    obtain ⟨other, absent⟩ := List.forall_mem_cons.1 absent
    rw [List.foldl_cons, ih _ absent, Vector.getElem?_setIfInBounds_ne other]

/-- Of declared sliders in order, each stands at its initial value and all others at zero. -/
theorem Context.sliders_loadSliders (context : Context) {info : Script.Info}
    (ordered : Script.Ordered info.sliders) :
    (∀ slider ∈ info.sliders, slider.index < sliderCount →
      (context.loadSliders info.initialValues).host? (.slider slider.index) =
        some slider.initial) ∧
    ∀ index < sliderCount, (∀ slider ∈ info.sliders, slider.index ≠ index) →
      (context.loadSliders info.initialValues).host? (.slider index) = some 0.0 := by
  simp only [loadSliders, host?, Script.Info.initialValues]
  constructor
  · intro slider member inRange
    obtain ⟨below, above, split⟩ := List.append_of_mem member
    rw [split] at ordered ⊢
    have after := (List.pairwise_cons.1 (List.pairwise_append.1 ordered).2.1).1
    have others : ∀ entry ∈ above.map fun slider => (slider.index, slider.initial),
        entry.1 ≠ slider.index := by
      intro entry listed
      obtain ⟨other, memberOther, rfl⟩ := List.mem_map.1 listed
      exact (after other memberOther).ne'
    rw [List.map_append, List.map_cons, List.foldl_append, List.foldl_cons,
      getElem?_foldl_of_not_mem _ _ others, Vector.getElem?_setIfInBounds_self, if_pos inRange]
  · intro index inRange absent
    have others : ∀ entry ∈ info.sliders.map fun slider => (slider.index, slider.initial),
        entry.1 ≠ index := by
      intro entry listed
      obtain ⟨other, memberOther, rfl⟩ := List.mem_map.1 listed
      exact absent other memberOther
    rw [getElem?_foldl_of_not_mem _ _ others, zeroSliders, Vector.getElem?_replicate,
      if_pos inRange]

end Machine

/-! ### Names of sliders -/

namespace Language

theorem sliderIndex?_eq_some_iff {digits : List Char} (number : Script.IsNumber digits)
    {index : Nat} :
    sliderIndex? digits = some index ↔
      Number.digitsValue digits = index + 1 ∧ index < sliderCount := by
  have isNumber : ¬(digits.isEmpty || !digits.all Number.isDigit) = true := by
    simpa [number.ne_nil] using fun c => number.isDigit
  rw [sliderIndex?, if_neg isNumber]
  dsimp only
  split
  · rename_i inRange
    simp only [Bool.and_eq_true, decide_eq_true_eq] at inRange
    rw [Option.some.injEq]
    omega
  · rename_i outside
    simp only [Bool.and_eq_true, decide_eq_true_eq] at outside
    refine iff_of_false nofun ?_
    omega

/-- A parser stands at a name that neither an opening parenthesis nor a bracket follows. -/
def Parser.AtBareName (parser : Parser) (name : String) : Prop :=
  ∃ token later, parser.rest = token :: later ∧ token.word = ⟨.identifier, name⟩ ∧
    parser.advance.current.endsName = true

/-- The name of a slider, or a name that begins like one. -/
def sliderName (digits : List Char) : String :=
  String.ofList (Script.sliderWord ++ digits)

theorem toList_sliderName (digits : List Char) :
    (sliderName digits).toList = 's' :: 'l' :: 'i' :: 'd' :: 'e' :: 'r' :: digits := by
  rw [sliderName, String.toList_ofList]
  rfl

/-- A bare name of the word `slider` and digits is read as the slider that the digits count, or as
a variable of the script if they count none. -/
theorem ensures_primary_sliderName {parser : Parser} {digits : List Char}
    (stands : parser.AtBareName (sliderName digits)) (statement expression : Parse Node)
    (good : Node → Parser → Prop) (bad : Parser → Prop) :
    (Parse.primary statement expression).Ensures parser good bad ↔
      match sliderIndex? digits with
      | some index => good (.var (.host (.slider index))) parser.advance
      | none => (Parse.internSymbol (sliderName digits)).Ensures parser.advance
          (fun symbol => good (.var (.named (sliderName digits) symbol))) bad := by
  obtain ⟨token, later, rest, spelled, ends⟩ := stands
  have letters := toList_sliderName digits
  rw [Parse.ensures_primary_of_name rest spelled (by rw [letters]; simp),
    Parse.ensures_afterName_bare ends, Parse.bareName, HostVar.constant?_of_sliderWord letters,
    HostVar.ofName?_of_sliderWord letters]
  cases sliderIndex? digits with
  | some index => rfl
  | none => rfl

end Language

namespace Script

/-- The digits behind the word `slider` count the same slider in a header line and in a name, and
where there is no such slider, both refuse them. -/
structure CountedAlike (digits : List Char) : Prop where
  isKey : isSliderKey (sliderWord ++ digits) = true
  key (rest : List Char) :
    splitKey? (sliderWord ++ digits ++ ':' :: rest) = some (sliderWord ++ digits, rest)
  declares_iff {parser : Parser} (stands : parser.AtBareName (sliderName digits))
    (statement expression : Parse Node) (lineNumber : Nat) (rest : List Char) (index : Nat) :
    (∃ slider, Slider.ofLine lineNumber (sliderWord ++ digits ++ ':' :: rest) = .ok slider ∧
      slider.index = index) ↔
    WellFormed rest ∧ (Parse.primary statement expression).Ensures parser
      (fun node _ => node = .var (.host (.slider index))) (fun _ => False)
  refused (beyond : Number.digitsValue digits = 0 ∨ sliderCount < Number.digitsValue digits) :
    (∀ {parser : Parser}, parser.AtBareName (sliderName digits) →
      ∀ statement expression : Parse Node, (Parse.primary statement expression).Ensures parser
        (fun node _ => ∃ symbol, node = .var (.named (sliderName digits) symbol))
        (fun _ => False)) ∧
    ∀ lineNumber rest, WellFormed rest →
      Slider.ofLine lineNumber (sliderWord ++ digits ++ ':' :: rest) = .error
        (if largestNumber < Number.digitsValue digits then
          .invalidSlider lineNumber (String.ofList (sliderWord ++ digits ++ ':' :: rest))
        else .sliderOutOfRange lineNumber (Number.digitsValue digits))

/-- A name is read as a slider exactly if its digits count it. -/
theorem ensures_slider_iff {digits : List Char} (number : IsNumber digits) {parser : Parser}
    (stands : parser.AtBareName (sliderName digits)) (statement expression : Parse Node)
    (index : Nat) :
    (Parse.primary statement expression).Ensures parser
      (fun node _ => node = .var (.host (.slider index))) (fun _ => False) ↔
    Number.digitsValue digits = index + 1 ∧ index < sliderCount := by
  rw [ensures_primary_sliderName stands, ← sliderIndex?_eq_some_iff number]
  cases sliderIndex? digits with
  | some found => simp
  | none => simp

theorem countedAlike {digits : List Char} (number : IsNumber digits) : CountedAlike digits where
  isKey := isSliderKey_iff.2 ⟨digits, rfl, number⟩
  key rest := splitKey?_slider number rest
  declares_iff stands statement expression lineNumber rest index := by
    rw [exists_ofLine_iff number, ensures_slider_iff number stands]
  refused beyond := by
    have outside (index : Nat) :
        ¬(Number.digitsValue digits = index + 1 ∧ index < sliderCount) := by
      omega
    constructor
    · intro parser stands statement expression
      have unknown : sliderIndex? digits = none := Option.eq_none_iff_forall_not_mem.2
        fun index found => outside index ((sliderIndex?_eq_some_iff number).1 found)
      rw [ensures_primary_sliderName stands, unknown]
      exact ⟨_, rfl⟩
    · rintro lineNumber rest ⟨texts, found, _⟩
      have taken := SliderTexts.ofLine?_eq number rest
      rw [SliderTexts.behindColon?_eq_map digits [], found] at taken
      exact Slider.ofLine_of_beyond lineNumber taken fun ⟨index, inRange, counted⟩ =>
        outside index ⟨counted.symm, inRange⟩

/-- What a source declares, what is installed and what a name means agree.  The sliders of a
compiled script stand in increasing order; they are those that header lines declare, each as it is
read from the last line that declares it, and the parameters are counted up to the last of them.
An installed script begins with each of them at its initial value and all others at zero.  Digits
behind the word `slider` count the same slider in a header line and in a name. -/
theorem sliders_of_compile {source : String} {script : Script}
    (compiled : (compile source).value = .ok script) :
    script.info.sliders.Pairwise (fun first second => first.index < second.index) ∧
    (∀ slider ∈ script.info.sliders, slider.index < sliderCount ∧
      LastDeclared 1 (Text.lines source.toList) slider) ∧
    (∀ index, (∃ slider ∈ script.info.sliders, slider.index = index) ↔
      ∃ place, Declares (Text.lines source.toList) place (index + 1)) ∧
    ((script.info.sliders = [] ∧ script.info.parameterCount = 0) ∨
      ∃ slider ∈ script.info.sliders,
        (∀ other ∈ script.info.sliders, other.index ≤ slider.index) ∧
          script.info.parameterCount = slider.index + 1) ∧
    (∀ interpreter : Interpreter,
      (∀ slider ∈ script.info.sliders,
        (interpreter.install script).value.context.host? (.slider slider.index) =
          some slider.initial) ∧
      ∀ index < sliderCount, (∀ slider ∈ script.info.sliders, slider.index ≠ index) →
        (interpreter.install script).value.context.host? (.slider index) = some 0.0) ∧
    ∀ digits, IsNumber digits → CountedAlike digits := by
  obtain ⟨body, read⟩ := readHeader_of_compile compiled
  have declared := declared_of_readHeader read
  have last (slider : Slider) (member : slider ∈ script.info.sliders) :
      slider.index < sliderCount ∧ LastDeclared 1 (Text.lines source.toList) slider :=
    have found := (declared.mem_iff slider).1 member
    ⟨found.index_lt, found⟩
  refine ⟨declared.ordered, last, declared.exists_iff, script.info.parameterCount_cases, ?_,
    fun digits => countedAlike⟩
  intro interpreter
  obtain ⟨set, zero⟩ := Machine.Context.sliders_loadSliders
    (interpreter.install script).value.context declared.ordered
  exact ⟨fun slider member => set slider member (last slider member).1, zero⟩

/-- One slider declared twice, another one by a number with a zero in front, which the body uses. -/
def declaredTwice : String :=
  "slider3:1<0,2>C\nslider01:0.5<0,1>A\nslider3:2<0,4>D\n@init\nslider001 = slider3;\n"

theorem sliders_of_compile_declaredTwice :
    Declares (Text.lines declaredTwice.toList) 2 3 ∧
    IsNumber ['0', '1'] ∧ WellFormed "0.5<0,1>A".toList ∧
    (Parser.ofSource "slider01;").AtBareName (sliderName ['0', '1']) ∧
    ∃ script, (compile declaredTwice).value = .ok script ∧
      (∃ slider ∈ script.info.sliders, slider.index = 2 ∧
        LastDeclared 1 (Text.lines declaredTwice.toList) slider) ∧
      ∀ statement expression : Parse Node,
        (Parse.primary statement expression).Ensures (Parser.ofSource "slider01;")
          (fun node _ => node = .var (.host (.slider 0))) (fun _ => False) := by
  have accepted : (compile declaredTwice).value.toOption.isSome = true := by
    decide +kernel
  have declares : Declares (Text.lines declaredTwice.toList) 2 3 :=
    ⟨by decide +kernel, ['3'], "2<0,4>D".toList, by decide +kernel,
      .of_all (by decide) (by decide), rfl⟩
  have number : IsNumber ['0', '1'] := .of_all (by decide) (by decide)
  have wellFormed : WellFormed "0.5<0,1>A".toList :=
    ⟨⟨[], "0.5".toList, ['0'], ['1'], [], ['A']⟩, by decide, by decide, by decide, by decide,
      by decide⟩
  have stands : (Parser.ofSource "slider01;").AtBareName (sliderName ['0', '1']) :=
    ⟨⟨.identifier, "slider01", 1, 1⟩, [⟨.punctuation, ";", 1, 9⟩], by decide +kernel,
      by decide +kernel, by decide +kernel⟩
  cases compiled : (compile declaredTwice).value with
  | error cause =>
    rw [compiled] at accepted
    contradiction
  | ok script =>
    obtain ⟨_, last, exists_iff, _, _, counted⟩ := sliders_of_compile compiled
    obtain ⟨slider, member, index⟩ := (exists_iff 2).2 ⟨2, declares⟩
    refine ⟨declares, number, wellFormed, stands, script, rfl,
      ⟨slider, member, index, (last slider member).2⟩, fun statement expression => ?_⟩
    have declared := (exists_ofLine_iff number 2 _ 0).2 ⟨wellFormed, rfl, by decide⟩
    exact (((counted _ number).declares_iff stands statement expression 2 _ 0).1 declared).2

example : (compile declaredTwice).value.toOption.map (fun script =>
    script.info.sliders.map fun slider => (slider.index, slider.label)) =
      some [(0, "A"), (2, "D")] := by
  decide +kernel

end Script

end EffectScript
