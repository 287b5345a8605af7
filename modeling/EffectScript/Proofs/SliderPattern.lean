import EffectScript.Proofs.SliderLines

/-!
# The pattern of a declaration

A declaration is what the pattern `^slider(\d+):([^<]+)<([^,>]+),([^,>]+),?([^>]*)>(.*)$` matches.
A match is searched leftmost-first: each part takes as much as it can, and gives back only when what
comes behind it finds no match.  On a line with a slider key no part has to give anything back for a
match, so that the texts between the delimiters are found in one pass.
-/

namespace EffectScript.Script

open EffectScript.Language

/-! ### Patterns -/

/-- One part of a pattern. -/
inductive Part where
  /-- A character. -/
  | mark (c : Char)
  /-- A character that may be absent. -/
  | optional (c : Char)
  /-- A captured run of characters of a class, of a least length. -/
  | run (least : Nat) (takes : Char → Bool)

/-- The ways to cut a text behind a run of characters of a class, longest run first. -/
def cuts (takes : Char → Bool) : List Char → List (List Char × List Char)
  | [] => [([], [])]
  | c :: rest =>
    if takes c then (cuts takes rest).map (fun cut => (c :: cut.1, cut.2)) ++ [([], c :: rest)]
    else [([], c :: rest)]

/-- The captured runs of the preferred match of a whole text. -/
def preferred? : List Part → List Char → Option (List (List Char))
  | [], text => if text.isEmpty then some [] else none
  | .mark _ :: _, [] => none
  | .mark mark :: more, c :: rest => if c = mark then preferred? more rest else none
  | .optional _ :: more, [] => preferred? more []
  | .optional mark :: more, c :: rest =>
    if c = mark then (preferred? more rest).or (preferred? more (c :: rest))
    else preferred? more (c :: rest)
  | .run least takes :: more, text =>
    ((cuts takes text).filter fun cut => least ≤ cut.1.length).findSome? fun cut =>
      (preferred? more cut.2).map (cut.1 :: ·)

section

variable {takes : Char → Bool}

/-- The longest run comes first.  A shorter one leaves a character of the class, and behind it more
of them, in front of what the longest one leaves. -/
theorem cuts_eq (takes : Char → Bool) (text : List Char) :
    ∃ shorter, cuts takes text = (text.takeWhile takes, text.dropWhile takes) :: shorter ∧
      ∀ cut ∈ shorter, cut.1.length < (text.takeWhile takes).length ∧ cut.2 <:+ text ∧
        ∃ c run, (∀ d ∈ c :: run, takes d = true) ∧
          cut.2 = c :: run ++ text.dropWhile takes := by
  induction text with
  | nil => exact ⟨[], rfl, by simp⟩
  | cons c rest ih =>
    obtain ⟨shorter, cutsRest, gives⟩ := ih
    rw [cuts]
    split
    · rename_i taken
      rw [cutsRest, List.takeWhile_cons_of_pos taken, List.dropWhile_cons_of_pos taken]
      refine ⟨_, rfl, fun cut member => ?_⟩
      rcases List.mem_append.1 member with longer | whole
      · obtain ⟨cutRest, memberRest, rfl⟩ := List.mem_map.1 longer
        obtain ⟨fewer, suffix, behind⟩ := gives cutRest memberRest
        exact ⟨Nat.succ_lt_succ fewer, suffix.trans (List.suffix_cons c rest), behind⟩
      · obtain rfl := List.mem_singleton.1 whole
        refine ⟨Nat.succ_pos _, List.suffix_rfl, c, rest.takeWhile takes, ?_, ?_⟩
        · rintro d (_ | ⟨_, member⟩)
          · exact taken
          · exact List.mem_takeWhile_imp member
        · rw [List.cons_append, List.takeWhile_append_dropWhile]
    · rename_i other
      rw [List.takeWhile_cons_of_neg other, List.dropWhile_cons_of_neg other]
      exact ⟨[], rfl, by simp⟩

/-- If nothing is found behind a shorter run unless something is found behind the longest one, then
the longest run is taken. -/
theorem preferred?_run {least : Nat} {more : List Part} {text : List Char}
    (stuck : ∀ c run, (∀ d ∈ c :: run, takes d = true) →
      c :: run ++ text.dropWhile takes <:+ text →
      preferred? more (text.dropWhile takes) = none →
      preferred? more (c :: run ++ text.dropWhile takes) = none) :
    preferred? (.run least takes :: more) text =
      if (text.takeWhile takes).length < least then none
      else (preferred? more (text.dropWhile takes)).map (text.takeWhile takes :: ·) := by
  obtain ⟨shorter, cutsText, gives⟩ := cuts_eq takes text
  rw [preferred?, cutsText]
  split
  · rename_i short
    have all : ∀ cut ∈ (text.takeWhile takes, text.dropWhile takes) :: shorter,
        ¬decide (least ≤ cut.1.length) = true := by
      rintro cut (_ | ⟨_, member⟩)
      · simpa using short
      · have fewer := (gives cut member).1
        simp only [decide_eq_true_eq]
        omega
    rw [List.filter_eq_nil_iff.2 all]
    rfl
  · rename_i enough
    rw [List.filter_cons_of_pos (by simpa using enough), List.findSome?_cons]
    cases found : preferred? more (text.dropWhile takes) with
    | some captures => rfl
    | none =>
      refine List.findSome?_eq_none_iff.2 fun cut member => ?_
      obtain ⟨_, suffix, c, run, taken, behind⟩ := gives cut (List.mem_filter.1 member).1
      rw [behind] at suffix ⊢
      rw [stuck c run taken suffix found]
      rfl

/-- Behind a run, a character that is not of its class leaves no choice. -/
theorem preferred?_run_mark {least : Nat} {mark : Char} (stops : takes mark = false)
    (more : List Part) (text : List Char) :
    preferred? (.run least takes :: .mark mark :: more) text =
      if (text.takeWhile takes).length < least then none
      else ((dropMark? mark (text.dropWhile takes)).bind (preferred? more)).map
        (text.takeWhile takes :: ·) := by
  have marked (rest : List Char) :
      preferred? (.mark mark :: more) rest = (dropMark? mark rest).bind (preferred? more) := by
    cases rest with
    | nil => rfl
    | cons c rest =>
      rw [preferred?, dropMark?]
      simp only [beq_iff_eq]
      split <;> rfl
  rw [preferred?_run, marked]
  intro c run taken _ _
  have other : c ≠ mark := by
    rintro rfl
    exact Bool.false_ne_true (stops.symm.trans (taken c List.mem_cons_self))
  rw [List.cons_append, preferred?, if_neg other]

end

/-! ### The pattern -/

/-- A class of digits: it has the ten decimal digits, and not the colon. -/
structure DigitClass where
  has : Char → Bool
  has_of_isDigit {c : Char} : Number.isDigit c = true → has c = true
  has_colon : has ':' = false

instance : Inhabited DigitClass :=
  ⟨⟨Number.isDigit, id, by decide⟩⟩

/-- What the pattern matches behind the colon and the first two texts: `([^,>]+),?([^>]*)>(.*)$`. -/
def stepParts : List Part :=
  [.optional ',', .run 0 (· != '>'), .mark '>', .run 0 (· != '\n')]

/-- The pattern of a declaration. -/
def sliderParts (digitClass : DigitClass) : List Part :=
  sliderWord.map .mark ++
    .run 1 digitClass.has :: .mark ':' :: .run 1 (!· == '<') :: .mark '<' ::
      .run 1 (!endsBound ·) :: .mark ',' :: .run 1 (!endsBound ·) :: stepParts

/-- The texts of a declaration in the order of the pattern. -/
def SliderTexts.captures (texts : SliderTexts) : List (List Char) :=
  [texts.number, texts.initial, texts.least, texts.greatest, texts.step, texts.label]

theorem dropMark?_eq_some_iff {mark : Char} {text rest : List Char} :
    dropMark? mark text = some rest ↔ text = mark :: rest := by
  cases text with
  | nil => simp [dropMark?]
  | cons c text =>
    rw [dropMark?]
    split
    · rename_i same
      simp [beq_iff_eq.1 same]
    · rename_i other
      simp [ne_of_beq_false (Bool.eq_false_iff.2 other)]

/-- A mark is found behind all that is not the mark, unless it is not there at all. -/
theorem dropMark?_dropWhile_eq_none_iff {mark : Char} {text : List Char} :
    dropMark? mark (text.dropWhile (· != mark)) = none ↔ mark ∉ text := by
  induction text with
  | nil => simp [dropMark?]
  | cons c text ih =>
    by_cases same : c = mark
    · subst same
      simp [dropMark?]
    · rw [List.dropWhile_cons_of_pos (p := (· != mark)) (bne_iff_ne.2 same), ih, List.mem_cons,
        or_iff_right (Ne.symm same)]

theorem preferred?_label {text : List Char} (whole : '\n' ∉ text) :
    preferred? [.run 0 (· != '\n')] text = some [text] := by
  have goesOn := forall_bne_of_not_mem whole
  have front := List.takeWhile_eq_self_iff.2 goesOn
  have back := List.dropWhile_eq_nil_iff.2 goesOn
  rw [preferred?_run, front, back]
  · rfl
  · intro c run _ _ none
    rw [back] at none
    contradiction

theorem preferred?_closing {text : List Char} (whole : '\n' ∉ text) :
    preferred? [.run 0 (· != '>'), .mark '>', .run 0 (· != '\n')] text =
      (dropMark? '>' (text.dropWhile (· != '>'))).map fun label =>
        [text.takeWhile (· != '>'), label] := by
  rw [preferred?_run_mark (by decide), if_neg (Nat.not_lt_zero _)]
  cases found : dropMark? '>' (text.dropWhile (· != '>')) with
  | none => rfl
  | some label =>
    have wholeLabel : '\n' ∉ label := by
      intro member
      refine whole ((List.dropWhile_suffix (· != '>')).subset ?_)
      rw [dropMark?_eq_some_iff.1 found]
      exact List.mem_cons_of_mem _ member
    rw [Option.bind_some, preferred?_label wholeLabel]
    rfl

/-- The comma is taken if it is there: without it, the closing bracket would not be found either. -/
theorem preferred?_stepParts {text : List Char} (whole : '\n' ∉ text) :
    preferred? stepParts text =
      (dropMark? '>' ((dropComma text).dropWhile (· != '>'))).map fun label =>
        [(dropComma text).takeWhile (· != '>'), label] := by
  cases text with
  | nil => exact preferred?_closing whole
  | cons c rest =>
    rw [stepParts, preferred?, preferred?_closing whole]
    split
    · rename_i comma
      subst comma
      rw [preferred?_closing fun member => whole (List.mem_cons_of_mem _ member)]
      have same : (',' :: rest).dropWhile (· != '>') = rest.dropWhile (· != '>') :=
        List.dropWhile_cons_of_pos (by decide)
      have dropped : dropComma (',' :: rest) = rest := rfl
      rw [same, dropped]
      cases dropMark? '>' (rest.dropWhile (· != '>')) <;> rfl
    · rename_i other
      have kept : dropComma (c :: rest) = c :: rest := by
        unfold dropComma
        split
        · simp_all
        · rfl
      rw [kept]

theorem preferred?_stepParts_eq_none_iff {text : List Char} (whole : '\n' ∉ text) :
    preferred? stepParts text = none ↔ '>' ∉ text := by
  have same : '>' ∈ dropComma text ↔ '>' ∈ text := by
    unfold dropComma
    split <;> simp
  rw [preferred?_stepParts whole, Option.map_eq_none_iff, dropMark?_dropWhile_eq_none_iff, same]

/-- A run of at least one character is a field. -/
theorem splitField?_bind {α : Type} (ends : Char → Bool) (text : List Char)
    (next : List Char × List Char → Option α) :
    (splitField? ends text).bind next =
      if (text.takeWhile (!ends ·)).length < 1 then none
      else next (text.takeWhile (!ends ·), text.dropWhile (!ends ·)) := by
  rw [splitField?]
  cases text.takeWhile (!ends ·) <;> rfl

/-- Of the texts between the angle brackets, the last one takes as much as it can as well. -/
theorem preferred?_greatest {text : List Char} (whole : '\n' ∉ text) :
    preferred? (.run 1 (!endsBound ·) :: stepParts) text =
      (splitField? endsBound text).bind fun found =>
        (preferred? stepParts found.2).map (found.1 :: ·) := by
  rw [splitField?_bind]
  refine preferred?_run fun c run taken suffix none => ?_
  have absent := (preferred?_stepParts_eq_none_iff fun member =>
    whole ((List.dropWhile_suffix _).subset member)).1 none
  refine (preferred?_stepParts_eq_none_iff fun member => whole (suffix.subset member)).2 ?_
  rw [List.mem_append]
  rintro (inRun | behind)
  · exact absurd (taken _ inRun) (by decide)
  · exact absent behind

theorem preferred?_field (ends : Char → Bool) (mark : Char) (stops : ends mark = true)
    (more : List Part) (text : List Char) :
    preferred? (.run 1 (!ends ·) :: .mark mark :: more) text =
      (splitField? ends text).bind fun found =>
        (dropMark? mark found.2).bind fun rest => (preferred? more rest).map (found.1 :: ·) := by
  have stops : (!ends mark) = false := by rw [stops]; rfl
  rw [preferred?_run_mark stops, splitField?_bind]
  simp only [Option.map_bind, Function.comp_def]

theorem suffix_of_splitField? {ends : Char → Bool} {text field rest : List Char}
    (found : splitField? ends text = some (field, rest)) : rest <:+ text := by
  unfold splitField? at found
  dsimp only at found
  split at found
  · contradiction
  · obtain ⟨_, rfl⟩ := Prod.mk.inj (Option.some.inj found)
    exact List.dropWhile_suffix _

theorem suffix_of_dropMark? {mark : Char} {text rest : List Char}
    (found : dropMark? mark text = some rest) : rest <:+ text := by
  rw [dropMark?_eq_some_iff.1 found]
  exact List.suffix_cons mark rest

theorem preferred?_behindColon (number : List Char) {rest : List Char} (whole : '\n' ∉ rest) :
    (preferred? (.run 1 (!· == '<') :: .mark '<' :: .run 1 (!endsBound ·) :: .mark ',' ::
      .run 1 (!endsBound ·) :: stepParts) rest).map (number :: ·) =
      (SliderTexts.behindColon? number rest).map SliderTexts.captures := by
  rw [preferred?_field (· == '<') '<' rfl, SliderTexts.behindColon?]
  simp only [Option.bind_eq_bind]
  cases foundInitial : splitField? (· == '<') rest with
  | none => rfl
  | some initial =>
    simp only [Option.bind_some]
    cases opened : dropMark? '<' initial.2 with
    | none => rfl
    | some inside =>
      simp only [Option.bind_some, preferred?_field endsBound ',' rfl]
      cases foundLeast : splitField? endsBound inside with
      | none => rfl
      | some least =>
        simp only [Option.bind_some]
        cases separated : dropMark? ',' least.2 with
        | none => rfl
        | some behind =>
          have suffix : behind <:+ rest :=
            (suffix_of_dropMark? separated).trans <| (suffix_of_splitField? foundLeast).trans <|
              (suffix_of_dropMark? opened).trans (suffix_of_splitField? foundInitial)
          have wholeBehind : '\n' ∉ behind := fun member => whole (suffix.subset member)
          simp only [Option.bind_some, preferred?_greatest wholeBehind]
          cases foundGreatest : splitField? endsBound behind with
          | none => rfl
          | some greatest =>
            have wholeStep : '\n' ∉ greatest.2 := fun member =>
              wholeBehind ((suffix_of_splitField? foundGreatest).subset member)
            simp only [Option.bind_some, preferred?_stepParts wholeStep]
            cases dropMark? '>' ((dropComma greatest.2).dropWhile (· != '>')) <;> rfl

/-- On a line with a slider key, the texts that are taken are those of the preferred match. -/
theorem preferred?_sliderParts (digitClass : DigitClass) {digits : List Char}
    (number : IsNumber digits) {rest : List Char} (whole : '\n' ∉ rest) :
    preferred? (sliderParts digitClass) (sliderWord ++ digits ++ ':' :: rest) =
      (SliderTexts.ofLine? (sliderWord ++ digits ++ ':' :: rest)).map SliderTexts.captures := by
  have word (more : List Part) (text : List Char) :
      preferred? (sliderWord.map .mark ++ more) (sliderWord ++ text) = preferred? more text := by
    simp [sliderWord, preferred?]
  have taken : ∀ c ∈ digits, digitClass.has c = true :=
    fun c member => digitClass.has_of_isDigit (number.isDigit member)
  have colon : ¬digitClass.has ':' = true := by simp [digitClass.has_colon]
  rw [SliderTexts.ofLine?_eq number, ← preferred?_behindColon digits whole, List.append_assoc,
    sliderParts, word, preferred?_run_mark digitClass.has_colon, List.takeWhile_append_of_pos taken,
    List.dropWhile_append_of_pos taken, List.takeWhile_cons_of_neg colon,
    List.dropWhile_cons_of_neg colon, List.append_nil, if_neg]
  · rfl
  · rw [Nat.lt_one_iff, List.length_eq_zero_iff]
    exact number.ne_nil

end EffectScript.Script
