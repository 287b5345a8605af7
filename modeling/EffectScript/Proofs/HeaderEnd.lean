import EffectScript.Proofs.Diagnostics

/-!
# Where the header ends

The header ends with the first line that, blanks aside, begins with an at sign; up to there every
line with a key is taken.  A section marker that begins its line ends the header, and nothing behind
it is taken.  A marker behind code or a comment on its line does not: for the parser a section
begins there, and yet lines with a key below it are taken out of the code.
-/

namespace EffectScript

open EffectScript.Language

/-! ### Lines of a text -/

namespace Text

/-- A line of a text, counted from zero, with its line end; empty behind the last line. -/
def line (text : List Char) (index : Nat) : List Char :=
  (lines text).getD index []

theorem lines_append_feed {line : List Char} (whole : '\n' ∉ line) (rest : List Char) :
    lines (line ++ '\n' :: rest) = (line ++ ['\n']) :: lines rest := by
  induction line with
  | nil => exact lines_feed rest
  | cons c line ih =>
    obtain ⟨other, later⟩ := List.ne_and_not_mem_of_not_mem_cons whole
    rw [List.cons_append, lines_cons other.symm, ih later]
    rfl

theorem lines_of_not_mem {c : Char} {line : List Char} (whole : '\n' ∉ c :: line) :
    lines (c :: line) = [c :: line] := by
  induction line generalizing c with
  | nil =>
    rw [lines_cons (List.ne_of_not_mem_cons whole).symm]
    rfl
  | cons next line ih =>
    obtain ⟨other, later⟩ := List.ne_and_not_mem_of_not_mem_cons whole
    rw [lines_cons other.symm, ih later]
    rfl

/-- A text is what stays of it, which does not end in a dropped character, and what is dropped. -/
theorem exists_dropEndWhile_append (drops : Char → Bool) (text : List Char) :
    ∃ dropped, text = dropEndWhile drops text ++ dropped ∧ (∀ c ∈ dropped, drops c = true) ∧
      ∀ c, (dropEndWhile drops text).getLast? = some c → drops c = false := by
  refine ⟨(text.reverse.takeWhile drops).reverse, ?_, fun c member => ?_, fun c last => ?_⟩
  · rw [dropEndWhile, ← List.reverse_append, List.takeWhile_append_dropWhile, List.reverse_reverse]
  · exact List.mem_takeWhile_imp (List.mem_reverse.1 member)
  · rw [dropEndWhile, List.getLast?_reverse] at last
    have stays := List.head?_dropWhile_not drops text.reverse
    rwa [last] at stays

/-- What is dropped at the end stands behind every character that stays. -/
theorem dropEndWhile_append_cons {drops : Char → Bool} {c : Char} (stays : drops c = false)
    (front text : List Char) :
    dropEndWhile drops (front ++ c :: text) = front ++ c :: dropEndWhile drops text := by
  have kept : List.dropWhile drops (c :: front.reverse) = c :: front.reverse :=
    List.dropWhile_cons_of_neg (by simp [stays])
  rw [dropEndWhile, dropEndWhile, List.reverse_append, List.reverse_cons, List.append_assoc,
    List.singleton_append, List.dropWhile_append, kept]
  split
  · rename_i gone
    rw [List.isEmpty_iff.1 gone]
    simp
  · simp

/-- What is left of a text if only blanks stand in front of a character. -/
theorem trim_append_cons {blanks : List Char} (allBlank : ∀ c ∈ blanks, isBlank c = true) {c : Char}
    (stays : isBlank c = false) (text : List Char) :
    trim (blanks ++ c :: text) = c :: dropEndWhile isBlank text := by
  rw [trim, List.dropWhile_append_of_pos allBlank, List.dropWhile_cons_of_neg (by simp [stays]),
    ← List.nil_append (c :: text), dropEndWhile_append_cons stays, List.nil_append]

end Text

namespace Script

/-- A text that is cut into lines has these lines. -/
theorem Cut.line_flatten {lines : List (List Char)} (cut : Cut lines) (index : Nat) :
    Text.line lines.flatten index = lines.getD index [] := by
  induction cut generalizing index with
  | nil => rfl
  | @last line whole =>
    cases line with
    | nil => cases index <;> rfl
    | cons c line =>
      rw [Text.line, List.flatten_singleton, Text.lines_of_not_mem whole]
  | @cons line rest whole _ ih =>
    rw [Text.line, List.flatten_cons, List.append_assoc, List.singleton_append,
      Text.lines_append_feed whole]
    cases index with
    | zero => rfl
    | succ index => exact ih index

/-! ### Lines that are taken -/

/-- The lines of the body. -/
def bodyLines : List (List Char) → List (List Char)
  | [] => []
  | line :: rest => if EndsHeader line then line :: rest else keptOf line :: bodyLines rest

/-- A line with a key that stands before any line that ends the header. -/
structure Takes (lines : List (List Char)) (index : Nat) : Prop where
  inside : ∀ other ≤ index, ¬EndsHeader (lines.getD other [])
  hasKey : HasKey (lines.getD index [])

theorem takes_succ {line : List Char} (goesOn : ¬EndsHeader line) (rest : List (List Char))
    (index : Nat) : Takes (line :: rest) (index + 1) ↔ Takes rest index := by
  constructor
  · intro ⟨inside, hasKey⟩
    exact ⟨fun other upTo => inside (other + 1) (Nat.succ_le_succ upTo), hasKey⟩
  · intro ⟨inside, hasKey⟩
    refine ⟨fun other upTo => ?_, hasKey⟩
    cases other with
    | zero => exact goesOn
    | succ other => exact inside other (Nat.le_of_succ_le_succ upTo)

/-- A taken line leaves its line feed, and every other line stays as it is. -/
theorem getD_bodyLines (lines : List (List Char)) (index : Nat) :
    (Takes lines index → (bodyLines lines).getD index [] = lineFeedOf (lines.getD index [])) ∧
      (¬Takes lines index → (bodyLines lines).getD index [] = lines.getD index []) := by
  induction lines generalizing index with
  | nil => exact ⟨fun _ => rfl, fun _ => rfl⟩
  | cons line rest ih =>
    rw [bodyLines]
    split
    · rename_i ends
      exact ⟨fun takes => absurd ends (takes.inside 0 (Nat.zero_le index)), fun _ => rfl⟩
    · rename_i goesOn
      cases index with
      | zero =>
        simp only [List.getD_cons_zero]
        refine ⟨fun takes => if_pos takes.hasKey, fun stays => if_neg fun hasKey => stays ?_⟩
        refine ⟨fun other upTo => ?_, hasKey⟩
        obtain rfl := Nat.le_zero.1 upTo
        exact goesOn
      | succ index =>
        simp only [List.getD_cons_succ, takes_succ goesOn]
        exact ih index

theorem Cut.bodyLines {lines : List (List Char)} (cut : Cut lines) : Cut (bodyLines lines) := by
  induction cut with
  | nil => exact .nil
  | @last line whole =>
    rw [Script.bodyLines, keptOf]
    split
    · exact .last whole
    · split
      · rw [lineFeedOf_of_not_mem whole]
        exact .last List.not_mem_nil
      · exact .last whole
  | @cons line rest whole cut ih =>
    rw [Script.bodyLines, keptOf]
    split
    · exact .cons whole cut
    · split
      · rw [lineFeedOf_append]
        exact .cons List.not_mem_nil ih
      · exact .cons whole ih

/-! ### Reading lines -/

theorem body_of_readLines {lines : List (List Char)} {info last : Info} {lineNumber : Nat}
    {body : List Char} (read : (readLines info lineNumber lines).run.value = .ok (last, body)) :
    body = (bodyLines lines).flatten := by
  induction lines generalizing info last lineNumber body with
  | nil => exact (Prod.mk.inj (Except.ok.inj read)).2.symm
  | cons line rest ih =>
    rw [bodyLines]
    split
    · rename_i ends
      rw [readLines_of_ends ends] at read
      exact (Prod.mk.inj (Except.ok.inj read)).2.symm
    · rename_i goesOn
      rcases readLines_of_goesOn goesOn info lineNumber with
        ⟨cause, _, refused⟩ | ⟨_, next, _, taken⟩
      · rw [refused] at read
        contradiction
      · rw [taken] at read
        cases below : (readLines next (lineNumber + 1) rest).run.value with
        | error cause =>
          rw [below] at read
          contradiction
        | ok result =>
          rw [below] at read
          rw [List.flatten_cons, ← ih below]
          exact (Prod.mk.inj (Except.ok.inj read)).2.symm

/-- From a line on that ends the header, lines are neither read nor changed. -/
theorem readLines_append_of_ends {line : List Char} (ends : EndsHeader line)
    (front rest : List (List Char)) (info : Info) (lineNumber : Nat) :
    (readLines info lineNumber (front ++ line :: rest)).run.value =
      (readLines info lineNumber front).run.value.map fun read =>
        (read.1, read.2 ++ (line :: rest).flatten) := by
  induction front generalizing info lineNumber with
  | nil => exact readLines_of_ends ends info lineNumber rest
  | cons first front ih =>
    by_cases endsFirst : EndsHeader first
    · rw [List.cons_append, readLines_of_ends endsFirst, readLines_of_ends endsFirst,
        ← List.cons_append, List.flatten_append]
      rfl
    · rcases readLines_of_goesOn endsFirst info lineNumber with
        ⟨cause, _, refused⟩ | ⟨_, next, finish, taken⟩
      · rw [List.cons_append, refused, refused]
        rfl
      · rw [List.cons_append, taken, taken, ih]
        cases (readLines next (lineNumber + 1) front).run.value with
        | error cause => rfl
        | ok result => simp [Except.map]

/-- The metadata is that of the lines in front of one that ends the header. -/
theorem readLines_take_of_ends {lines : List (List Char)} {index : Nat}
    (ends : EndsHeader (lines.getD index [])) {info last : Info} {lineNumber : Nat}
    {body : List Char} (read : (readLines info lineNumber lines).run.value = .ok (last, body)) :
    ∃ front, (readLines info lineNumber (lines.take index)).run.value = .ok (last, front) := by
  have split := List.take_append_drop index lines
  rw [List.getD_eq_getElem?_getD, ← List.head?_drop] at ends
  cases rest : lines.drop index with
  | nil =>
    rw [rest] at ends
    exact absurd ends (by decide)
  | cons line behind =>
    rw [rest] at ends split
    have endsLine : EndsHeader line := ends
    rw [← split, readLines_append_of_ends endsLine] at read
    cases front : (readLines info lineNumber (lines.take index)).run.value with
    | error cause =>
      rw [front] at read
      contradiction
    | ok result =>
      rw [front] at read
      obtain ⟨rfl, _⟩ := Prod.mk.inj (Except.ok.inj read)
      exact ⟨result.2, rfl⟩

end Script

/-! ### Markers -/

namespace Language

/-- A name begins with the first character that it takes. -/
theorem lexeme_head_of_identifier {first : Char} {rest : List Char}
    (kind : (lexeme first rest).kind = .identifier) :
    (lexeme first rest).text.head? = some first := by
  cases lexeme_form first rest with
  | name read => rw [read, nameLexeme, List.head?_cons]
  | symbol read =>
    rw [read] at kind
    exact absurd (symbolLexeme_kind first rest) (by simp [kind])
  | feed read | string read | number _ read | lineComment _ read | blockComment _ read =>
    rw [read] at kind
    contradiction

theorem Token.BeginsWith.eq_at {token : Token} {text : List Char} {first : Char}
    (begins : token.BeginsWith text first) (marker : token.isSectionMarker = true) :
    first = '@' := by
  obtain ⟨before, stretch, behind, more, _, read, rfl, taken⟩ := begins
  rw [read.token_eq taken, isSectionMarker, Bool.and_eq_true, beq_iff_eq, beq_iff_eq] at marker
  obtain ⟨kind, head⟩ := marker
  have name := lexeme_head_of_identifier kind
  simp only [Cursor.tokenAt, String.toList_ofList] at head
  exact Option.some.inj (name.symm.trans head)

/-- On the line of a token, only blanks stand in front of it. -/
def Token.StartsLine (token : Token) (text : List Char) : Prop :=
  ((Text.line text (token.line - 1)).take (token.column - 1)).all Text.isBlank = true

instance (token : Token) (text : List Char) : Decidable (token.StartsLine text) :=
  inferInstanceAs (Decidable (_ = _))

/-- The line that a marker begins ends the header. -/
theorem endsHeader_of_marker {body : String} {marker : Token} (member : marker ∈ tokenize body)
    (isMarker : marker.isSectionMarker = true) (starts : marker.StartsLine body.toList) :
    Script.EndsHeader (Text.line body.toList (marker.line - 1)) := by
  obtain ⟨tokens, whole, begins⟩ := exists_tokenize_eq body
  rw [whole, List.mem_append] at member
  rcases member with inside | atEnd
  · obtain ⟨_, first, begins⟩ := begins marker inside
    obtain rfl := begins.eq_at isMarker
    obtain ⟨before, behind, cut, place⟩ := begins.standsAt
    have found := lineFrom_placeAfter before ('@' :: behind)
    rw [← cut, place, Text.lines_cons (by decide)] at found
    have split := List.take_append_drop (marker.column - 1)
      (Text.line body.toList (marker.line - 1))
    rw [Script.EndsHeader, ← split]
    have drop : (Text.line body.toList (marker.line - 1)).drop (marker.column - 1) =
        '@' :: (Text.lines behind).headD [] := found
    rw [drop, Text.trim_append_cons (List.all_eq_true.1 starts) (by decide)]
    rfl
  · obtain rfl := List.mem_singleton.1 atEnd
    contradiction

end Language

namespace Script

/-! ### Sources -/

theorem readLines_of_readHeader {source body : String} {info : Info}
    (read : (readHeader source).run.value = .ok (info, body)) :
    (readLines .empty 1 (Text.lines source.toList)).run.value = .ok (info, body.toList) := by
  rw [value_run_readHeader] at read
  cases lines : (readLines .empty 1 (Text.lines source.toList)).run.value with
  | error cause =>
    rw [lines] at read
    contradiction
  | ok result =>
    rw [lines] at read
    obtain ⟨rfl, rfl⟩ := Prod.mk.inj (Except.ok.inj read)
    rw [String.toList_ofList]

theorem endsHeader_lineFeedOf (line : List Char) : ¬EndsHeader (lineFeedOf line) := by
  unfold lineFeedOf
  split <;> decide

/-- What the header takes.  Of a line with a key, which stands before any line that begins with an
at sign, the body keeps the line feed, and it keeps every other line whole.  Where a section marker
of the body begins its line, the metadata is that of the lines in front of it alone, and that line
and all lines behind it are those of the source. -/
theorem lines_of_readHeader {source body : String} {info : Info}
    (read : (readHeader source).run.value = .ok (info, body)) :
    (∀ index,
      (Takes (Text.lines source.toList) index →
        Text.line body.toList index = lineFeedOf (Text.line source.toList index)) ∧
      (¬Takes (Text.lines source.toList) index →
        Text.line body.toList index = Text.line source.toList index)) ∧
    ∀ marker ∈ tokenize body, marker.isSectionMarker = true → marker.StartsLine body.toList →
      (∃ front, (readLines .empty 1
        ((Text.lines source.toList).take (marker.line - 1))).run.value = .ok (info, front)) ∧
      ∀ index, marker.line - 1 ≤ index →
        Text.line body.toList index = Text.line source.toList index := by
  have lines := readLines_of_readHeader read
  have bodyLine (index : Nat) :
      Text.line body.toList index = (bodyLines (Text.lines source.toList)).getD index [] := by
    rw [body_of_readLines lines, (cut_lines source.toList).bodyLines.line_flatten]
  have kept (index : Nat) := getD_bodyLines (Text.lines source.toList) index
  simp only [← bodyLine] at kept
  refine ⟨kept, fun marker member isMarker starts => ?_⟩
  have ends := endsHeader_of_marker member isMarker starts
  -- The line of the marker was not taken, as only a line feed would be left of it.
  have notTaken : ¬Takes (Text.lines source.toList) (marker.line - 1) := by
    intro takes
    rw [(kept _).1 takes] at ends
    exact endsHeader_lineFeedOf _ ends
  rw [(kept _).2 notTaken] at ends
  refine ⟨readLines_take_of_ends ends lines, fun index behind => (kept index).2 fun takes => ?_⟩
  exact takes.inside _ behind ends

/-- A section that opens on a line of its own, with a key in front of it and one behind. -/
def earlyMarker : String :=
  "desc:x\n @init\ndesc:nope\n"

theorem lines_of_readHeader_earlyMarker :
    ∃ info body, (readHeader earlyMarker).run.value = .ok (info, body) ∧
      Text.line body.toList 0 = lineFeedOf (Text.line earlyMarker.toList 0) ∧
      ∃ marker ∈ tokenize body, marker.isSectionMarker = true ∧ marker.StartsLine body.toList ∧
        (∃ front, (readLines .empty 1 ((Text.lines earlyMarker.toList).take 1)).run.value =
          .ok (info, front)) ∧
        ∀ index, 1 ≤ index → Text.line body.toList index = Text.line earlyMarker.toList index := by
  have accepted : (readHeader earlyMarker).run.value.toOption.any (fun read =>
      decide (read.2 = "\n @init\ndesc:nope\n")) = true := by
    decide +kernel
  cases read : (readHeader earlyMarker).run.value with
  | error cause =>
    rw [read] at accepted
    contradiction
  | ok result =>
    obtain ⟨info, body⟩ := result
    rw [read] at accepted
    simp only [Except.toOption, Option.any_some, decide_eq_true_eq] at accepted
    subst accepted
    obtain ⟨kept, ended⟩ := lines_of_readHeader read
    have takes : Takes (Text.lines earlyMarker.toList) 0 := by
      refine ⟨fun other upTo => ?_, by decide +kernel⟩
      obtain rfl := Nat.le_zero.1 upTo
      decide +kernel
    have member : (⟨.identifier, "@init", 2, 2⟩ : Token) ∈ tokenize "\n @init\ndesc:nope\n" := by
      decide +kernel
    have starts : Token.StartsLine ⟨.identifier, "@init", 2, 2⟩ "\n @init\ndesc:nope\n".toList := by
      decide +kernel
    have isMarker : Token.isSectionMarker ⟨.identifier, "@init", 2, 2⟩ = true := by decide
    exact ⟨info, _, rfl, (kept 0).1 takes, _, member, isMarker, starts,
      ended _ member isMarker starts⟩

/-- A section that opens behind code on its line, and below it a line with a key. -/
def lateMarker : String :=
  "x = 1; @init\ndesc:nope\n"

/-- The first marker of a body, with the line on which it stands. -/
def firstMarker? (body : String) : Option Token :=
  (tokenize body).find? Token.isSectionMarker

/-- A line with a key behind the first section marker is taken, if the marker does not begin its
line. -/
theorem line_taken_behind_marker :
    ∃ info body, (readHeader lateMarker).run.value = .ok (info, body) ∧
      firstMarker? body = some ⟨.identifier, "@init", 1, 8⟩ ∧
      info.description = "nope" ∧
      Text.line lateMarker.toList 1 = "desc:nope\n".toList ∧
      Text.line body.toList 1 = "\n".toList := by
  have read : (readHeader lateMarker).run.value.toOption.any (fun read =>
      decide (firstMarker? read.2 = some ⟨.identifier, "@init", 1, 8⟩) &&
        decide (read.1.description = "nope") &&
        decide (Text.line read.2.toList 1 = "\n".toList)) = true := by
    decide +kernel
  cases outcome : (readHeader lateMarker).run.value with
  | error cause =>
    rw [outcome] at read
    contradiction
  | ok result =>
    rw [outcome] at read
    simp only [Except.toOption, Option.any_some, Bool.and_eq_true, decide_eq_true_eq] at read
    exact ⟨result.1, result.2, rfl, read.1.1, read.1.2, by decide +kernel, read.2⟩

end Script

end EffectScript
