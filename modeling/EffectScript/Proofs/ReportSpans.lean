import EffectScript.Proofs.HeaderEnd
import EffectScript.Script.Report

/-!
# Marked spans

The span that a report marks lies inside the source and is never empty unless the source is.  For a
number that is the number of a line, it is that line without its line end, or the first character of
the line end if there is nothing else on the line; for any other number it is the last character of
the source.  Offsets count bytes here, and in a source of ASCII characters these are the offsets
that count characters.
-/

namespace EffectScript

open EffectScript.Language

/-! ### Numbered lines -/

namespace Text

/-- A line of a text with its line end, its number counted from one, and the texts in front of it
and behind it. -/
structure LineAt (text : List Char) (number : Nat) (before line behind : List Char) : Prop where
  whole : text = before ++ (line ++ behind)
  begins : before = [] ∨ ∃ front, before = front ++ ['\n']
  number_eq : number = 1 + before.count '\n'
  ends : (∃ content, '\n' ∉ content ∧ line = content ++ ['\n']) ∨
    '\n' ∉ line ∧ line ≠ [] ∧ behind = []

/-- A text has no line, or one line without line feed, or a line that ends in a line feed and is
followed by a text. -/
theorem line_induction {motive : List Char → Prop} (empty : motive [])
    (last : ∀ line, '\n' ∉ line → line ≠ [] → motive line)
    (feed : ∀ line rest, '\n' ∉ line → motive rest → motive (line ++ '\n' :: rest))
    (text : List Char) : motive text := by
  induction length : text.length using Nat.strongRecOn generalizing text with
  | ind _ ih =>
    by_cases feeds : '\n' ∈ text
    · obtain ⟨line, rest, rfl, whole⟩ := List.eq_append_cons_of_mem feeds
      refine feed line rest whole (ih _ ?_ rest rfl)
      simp only [List.length_append, List.length_cons] at length
      omega
    · by_cases nothing : text = []
      · exact nothing ▸ empty
      · exact last text feeds nothing

theorem lines_of_ne_nil {line : List Char} (whole : '\n' ∉ line) (some : line ≠ []) :
    lines line = [line] := by
  obtain ⟨c, rest, rfl⟩ := List.exists_cons_of_ne_nil some
  exact lines_of_not_mem whole

/-- Cutting a text behind a line feed cuts the list of its lines. -/
theorem lines_append_feed_append (front rest : List Char) :
    lines (front ++ '\n' :: rest) = lines (front ++ ['\n']) ++ lines rest := by
  induction front using line_induction with
  | empty => rfl
  | last line whole some => rw [lines_append_feed whole, lines_append_feed whole]; rfl
  | feed line front whole ih =>
    rw [List.append_assoc, List.append_assoc, List.cons_append, List.cons_append,
      lines_append_feed whole, lines_append_feed whole, ih, List.cons_append]

theorem length_lines_append_feed (front : List Char) :
    (lines (front ++ ['\n'])).length = (front ++ ['\n']).count '\n' := by
  induction front using line_induction with
  | empty => rfl
  | last line whole some => simp [lines_append_feed whole, List.count_eq_zero.mpr whole, lines]
  | feed line front whole ih =>
    rw [List.append_assoc, List.cons_append, lines_append_feed whole, List.length_cons, ih]
    simp [List.count_eq_zero.mpr whole]

namespace LineAt

variable {text before line behind : List Char} {number : Nat}

/-- The first of several lines. -/
theorem first {content : List Char} (whole : '\n' ∉ content) (rest : List Char) :
    LineAt (content ++ '\n' :: rest) 1 [] (content ++ ['\n']) rest where
  whole := by simp
  begins := .inl rfl
  number_eq := rfl
  ends := .inl ⟨content, whole, rfl⟩

/-- The only line. -/
theorem only (whole : '\n' ∉ line) (some : line ≠ []) : LineAt line 1 [] line [] where
  whole := by simp
  begins := .inl rfl
  number_eq := rfl
  ends := .inr ⟨whole, some, rfl⟩

/-- With a line in front, all lines are one later. -/
theorem later {content : List Char} (whole : '\n' ∉ content)
    (below : LineAt text number before line behind) :
    LineAt (content ++ '\n' :: text) (number + 1) (content ++ '\n' :: before) line behind where
  whole := by rw [below.whole, List.append_assoc, List.cons_append]
  begins := by
    rcases below.begins with rfl | ⟨front, rfl⟩
    · exact .inr ⟨content, rfl⟩
    · exact .inr ⟨content ++ '\n' :: front, by simp⟩
  number_eq := by
    rw [below.number_eq, List.count_append, List.count_eq_zero.mpr whole, List.count_cons_self]
    omega
  ends := below.ends

theorem line_ne_nil (located : LineAt text number before line behind) : line ≠ [] := by
  rcases located.ends with ⟨content, _, rfl⟩ | ⟨_, some, _⟩
  · simp
  · exact some

/-- The lines of a text with the one at a number. -/
theorem lines_eq (located : LineAt text number before line behind) :
    ∃ front, lines text = front ++ line :: lines behind ∧ front.length + 1 = number ∧
      front.flatten = before := by
  have here : lines (line ++ behind) = line :: lines behind := by
    rcases located.ends with ⟨content, whole, rfl⟩ | ⟨whole, some, rfl⟩
    · rw [List.append_assoc, List.singleton_append, lines_append_feed whole]
    · rw [List.append_nil, lines_of_ne_nil whole some]
      rfl
  refine ⟨lines before, ?_, ?_, flatten_lines before⟩
  · rw [located.whole, ← here]
    rcases located.begins with rfl | ⟨front, rfl⟩
    · rfl
    · rw [List.append_assoc, List.singleton_append, lines_append_feed_append]
  · rw [located.number_eq, Nat.add_comm]
    rcases located.begins with rfl | ⟨front, rfl⟩
    · rfl
    · rw [length_lines_append_feed]

end LineAt

/-- The lines of a text are numbered from one. -/
theorem exists_lineAt {text : List Char} {number : Nat} (positive : 0 < number)
    (inside : number ≤ (lines text).length) :
    ∃ before line behind, LineAt text number before line behind := by
  induction text using line_induction generalizing number with
  | empty => exact absurd (positive.trans_le inside) (Nat.lt_irrefl 0)
  | last line whole some =>
    rw [lines_of_ne_nil whole some] at inside
    obtain rfl : number = 1 := Nat.le_antisymm inside positive
    exact ⟨[], line, [], .only whole some⟩
  | feed content rest whole ih =>
    rw [lines_append_feed whole, List.length_cons] at inside
    cases number with
    | zero => exact absurd positive (Nat.lt_irrefl 0)
    | succ number =>
      rcases Nat.eq_zero_or_pos number with rfl | later
      · exact ⟨[], _, rest, .first whole rest⟩
      · obtain ⟨before, line, behind, located⟩ := ih later (Nat.le_of_succ_le_succ inside)
        exact ⟨_, line, behind, located.later whole⟩

/-- In front of a character there are fewer line feeds than lines. -/
theorem count_lt_length_lines (before : List Char) (c : Char) (behind : List Char) :
    before.count '\n' < (lines (before ++ c :: behind)).length := by
  induction before with
  | nil =>
    by_cases feed : c = '\n'
    · subst feed
      simp [lines_feed]
    · simp [lines_cons feed]
  | cons first before ih =>
    by_cases feed : first = '\n'
    · subst feed
      simpa [lines_feed] using ih
    · rw [List.cons_append, lines_cons feed, List.count_cons_of_ne feed, List.length_cons,
        List.length_tail]
      omega

end Text

/-! ### Line ends and bytes -/

namespace Text

/-- Number of bytes of a text. -/
def byteLength (text : List Char) : Nat :=
  (String.ofList text).utf8ByteSize

theorem byteLength_of_ascii {text : List Char} (ascii : ∀ c ∈ text, c.toNat < 128) :
    byteLength text = text.length := by
  induction text with
  | nil => rfl
  | cons c text ih =>
    obtain ⟨first, rest⟩ := List.forall_mem_cons.1 ascii
    have one : c.utf8Size = 1 := Char.utf8Size_eq_one_iff.2 (Nat.le_of_lt_succ first)
    rw [byteLength, String.ofList_cons, String.utf8ByteSize_append, String.utf8ByteSize_singleton,
      one, ← byteLength, ih rest, List.length_cons, Nat.add_comm]

end Text

namespace Script

theorem lineSpanFrom_append (front lines : List (List Char)) (offset number : Nat) :
    lineSpanFrom offset (front.length + (number + 1)) (front ++ lines) =
      lineSpanFrom (offset + front.flatten.length) (number + 1) lines := by
  induction front generalizing offset with
  | nil => simp
  | cons line front ih =>
    have next : (line :: front).length + (number + 1) = front.length + number + 2 := by
      simp only [List.length_cons]
      omega
    rw [next, List.cons_append, lineSpanFrom, Nat.add_assoc, ih, List.flatten_cons,
      List.length_append, Nat.add_assoc]

/-- The span of a line. -/
def spanOfLine (offset : Nat) (line : List Char) : Span :=
  ⟨offset, offset + max 1 (Text.dropEndWhile Text.isLineEnd line).length⟩

theorem lineSpanFrom_of_lineAt {text before line behind : List Char} {number : Nat}
    (located : Text.LineAt text number before line behind) (offset : Nat) :
    lineSpanFrom offset number (Text.lines text) =
      some (spanOfLine (offset + before.length) line) := by
  obtain ⟨front, lines, rfl, rfl⟩ := located.lines_eq
  rw [lines, lineSpanFrom_append]
  rfl

theorem lineSpanFrom_eq_none {number : Nat} {lines : List (List Char)}
    (beyond : number = 0 ∨ lines.length < number) (offset : Nat) :
    lineSpanFrom offset number lines = none := by
  fun_induction lineSpanFrom offset number lines with
  | case1 => rfl
  | case2 => rfl
  | case3 => simp at beyond
  | case4 offset number line rest ih => exact ih (.inr (by simpa using beyond))

/-! ### The marked span -/

/-- A span marks a line behind a text: it begins with the line and leaves out the line end, unless
there is nothing else on the line and it is the first byte of the line end. -/
structure Span.Marks (before line : List Char) (span : Span) : Prop where
  start_eq : span.start = Text.byteLength before
  covers : ∃ content ending, line = content ++ ending ∧ (∀ c ∈ ending, c = '\n' ∨ c = '\r') ∧
    (∀ c, content.getLast? = some c → c ≠ '\n' ∧ c ≠ '\r') ∧
    span.stop = span.start + if content = [] then 1 else Text.byteLength content

/-- A span inside a source of some bytes, which is empty only if the source is. -/
structure Span.Inside (size : Nat) (span : Span) : Prop where
  ordered : span.start ≤ span.stop
  ends : span.stop ≤ size
  some : 0 < size → span.start < span.stop

variable {source before line behind : List Char} {number : Nat}

theorem lineSpan_of_lineAt (located : Text.LineAt source number before line behind) :
    lineSpan source number = spanOfLine before.length line := by
  rw [lineSpan, lineSpanFrom_of_lineAt located, Option.getD_some, Nat.zero_add]

theorem marks_spanOfLine (asciiBefore : ∀ c ∈ before, c.toNat < 128)
    (asciiLine : ∀ c ∈ line, c.toNat < 128) : (spanOfLine before.length line).Marks before line := by
  obtain ⟨ending, whole, dropped, stays⟩ := Text.exists_dropEndWhile_append Text.isLineEnd line
  refine ⟨(Text.byteLength_of_ascii asciiBefore).symm, _, ending, whole, ?_, ?_, ?_⟩
  · simpa [Text.isLineEnd] using dropped
  · simpa [Text.isLineEnd] using stays
  · have asciiContent : ∀ c ∈ Text.dropEndWhile Text.isLineEnd line, c.toNat < 128 := by
      intro c member
      exact asciiLine c (whole ▸ List.mem_append_left ending member)
    rw [Text.byteLength_of_ascii asciiContent, spanOfLine]
    split
    · rename_i nothing
      rw [nothing]
      rfl
    · rename_i some
      rw [Nat.max_eq_right (List.length_pos_iff.2 some)]

theorem inside_spanOfLine (located : Text.LineAt source number before line behind) :
    (spanOfLine before.length line).Inside source.length := by
  obtain ⟨ending, whole, -⟩ := Text.exists_dropEndWhile_append Text.isLineEnd line
  have shorter : (Text.dropEndWhile Text.isLineEnd line).length ≤ line.length := by
    rw [congrArg List.length whole, List.length_append]
    exact Nat.le_add_right _ _
  have some : 0 < line.length := List.length_pos_iff.2 located.line_ne_nil
  have size := congrArg List.length located.whole
  simp only [List.length_append] at size
  constructor <;> simp only [spanOfLine] <;> omega

theorem lineSpan_of_not_lineAt
    (none : ¬∃ before line behind, Text.LineAt source number before line behind) :
    lineSpan source number = ⟨source.length - 1, source.length⟩ := by
  have beyond : number = 0 ∨ (Text.lines source).length < number := by
    by_contra inside
    rw [not_or, Nat.not_lt] at inside
    exact none (Text.exists_lineAt (Nat.pos_of_ne_zero inside.1) inside.2)
  rw [lineSpan, lineSpanFrom_eq_none beyond]
  rfl

theorem inside_lineSpan (source : List Char) (number : Nat) :
    (lineSpan source number).Inside source.length := by
  by_cases located : ∃ before line behind, Text.LineAt source number before line behind
  · obtain ⟨before, line, behind, located⟩ := located
    rw [lineSpan_of_lineAt located]
    exact inside_spanOfLine located
  · rw [lineSpan_of_not_lineAt located]
    exact ⟨Nat.sub_le _ _, Nat.le_refl _, fun some => Nat.sub_lt some Nat.one_pos⟩

/-! ### Errors -/

/-- A header error names a line of the source.  A nesting error does so too, unless it is found at
the end of a source without a last line. -/
theorem located_of_compile_error {source : String} {cause : LoadError}
    (failed : (compile source).value = .error cause) :
    (∃ before line behind, Text.LineAt source.toList cause.line before line behind) ∨
      cause.line = 1 + source.toList.count '\n' := by
  rcases compile_error failed with ⟨refused, rfl, header⟩ | ⟨refused, info, body, rfl, header, deep⟩
  · obtain ⟨index, first⟩ := firstRefused_of_readHeader header
    obtain ⟨line, found, _, _, _, _, wrong⟩ := first.refused
    have inside := (List.getElem?_eq_some_iff.1 found).1
    left
    rw [LoadError.line, Slider.ofLine_error wrong, Nat.add_comm]
    exact Text.exists_lineAt (Nat.succ_pos index) inside
  · cases (pointsAt_of_refused (blanks_of_readHeader header) deep).2 with
    | first _ _ _ stands =>
      obtain ⟨before, behind, whole, place⟩ := stands
      -- The character at which the parser stands is on a line, so there are enough of them.
      have line : 1 + before.count '\n' = refused.line := congrArg Position.line place
      left
      rw [LoadError.line, ← line, Nat.add_comm]
      refine Text.exists_lineAt (Nat.succ_pos _) ?_
      rw [whole]
      exact Text.count_lt_length_lines before _ behind
    | finish _ _ line _ => exact .inr line

theorem ne_empty_of_compile_error {source : String} {cause : LoadError}
    (failed : (compile source).value = .error cause) : source ≠ "" := by
  rintro rfl
  have compiles : failure? "" = none := by decide +kernel
  rw [failure?, failed] at compiles
  contradiction

/-- The marked span of any line number lies inside the source and is empty only if the source is; it
marks the line with that number, or the last byte if there is none.  So what is marked for an error
for which a source does not compile is some stretch of that source; its number is that of a line, or
of the place behind the last line feed. -/
theorem lineSpan_selects_line {source : String} (ascii : ∀ c ∈ source.toList, c.toNat < 128) :
    (∀ number, (lineSpan source.toList number).Inside source.utf8ByteSize ∧
      (∀ before line behind, Text.LineAt source.toList number before line behind →
        (lineSpan source.toList number).Marks before line) ∧
      ((¬∃ before line behind, Text.LineAt source.toList number before line behind) →
        lineSpan source.toList number = ⟨source.utf8ByteSize - 1, source.utf8ByteSize⟩)) ∧
    ∀ cause, (compile source).value = .error cause →
      (lineSpan source.toList cause.line).start < (lineSpan source.toList cause.line).stop ∧
      (lineSpan source.toList cause.line).stop ≤ source.utf8ByteSize ∧
      ((∃ before line behind, Text.LineAt source.toList cause.line before line behind) ∨
        cause.line = 1 + source.toList.count '\n') := by
  have size : source.utf8ByteSize = source.toList.length := by
    rw [← Text.byteLength_of_ascii ascii, Text.byteLength, String.ofList_toList]
  rw [size]
  refine ⟨fun number => ⟨inside_lineSpan _ _, fun before line behind located => ?_,
    lineSpan_of_not_lineAt⟩, fun cause failed => ?_⟩
  · rw [lineSpan_of_lineAt located]
    simp only [located.whole, List.forall_mem_append] at ascii
    exact marks_spanOfLine ascii.1 ascii.2.1
  · have inside := inside_lineSpan source.toList cause.line
    have some : 0 < source.toList.length := by
      rw [List.length_pos_iff]
      simpa using ne_empty_of_compile_error failed
    exact ⟨inside.some some, inside.ends, located_of_compile_error failed⟩

/-- Line ends of two characters, an empty line, and a slider that is declared wrongly. -/
def carriageSource : String :=
  "desc:gain\r\n\r\nslider1:loud\r\n"

theorem lineSpan_selects_line_carriageSource :
    (∀ c ∈ carriageSource.toList, c.toNat < 128) ∧
    (Text.LineAt carriageSource.toList 2 "desc:gain\r\n".toList "\r\n".toList
        "slider1:loud\r\n".toList ∧
      (lineSpan carriageSource.toList 2).Marks "desc:gain\r\n".toList "\r\n".toList) ∧
    ((¬∃ before line behind, Text.LineAt carriageSource.toList 0 before line behind) ∧
      lineSpan carriageSource.toList 0 = ⟨26, 27⟩) ∧
    (compile carriageSource).value = .error (.header (.invalidSlider 3 "slider1:loud")) ∧
      (lineSpan carriageSource.toList 3).start < (lineSpan carriageSource.toList 3).stop ∧
      (lineSpan carriageSource.toList 3).stop ≤ 27 := by
  have ascii : ∀ c ∈ carriageSource.toList, c.toNat < 128 := by
    have all : (carriageSource.toList.all fun c => c.toNat < 128) = true := by decide +kernel
    simpa only [List.all_eq_true, decide_eq_true_eq] using all
  have blank : Text.LineAt carriageSource.toList 2 "desc:gain\r\n".toList "\r\n".toList
      "slider1:loud\r\n".toList :=
    ⟨by decide +kernel, .inr ⟨"desc:gain\r".toList, by decide +kernel⟩, by decide +kernel,
      .inl ⟨['\r'], by decide +kernel, by decide +kernel⟩⟩
  have numbered : ¬∃ before line behind,
      Text.LineAt carriageSource.toList 0 before line behind := by
    rintro ⟨before, line, behind, located⟩
    have number := located.number_eq
    omega
  have refused : (compile carriageSource).value =
      .error (.header (.invalidSlider 3 "slider1:loud")) :=
    compile_of_failure? (by decide +kernel)
  have spans := lineSpan_selects_line ascii
  have marked := spans.2 _ refused
  exact ⟨ascii, ⟨blank, (spans.1 2).2.1 _ _ _ blank⟩, ⟨numbered, (spans.1 0).2.2 numbered⟩,
    refused, marked.1, marked.2.1⟩

end Script

end EffectScript
