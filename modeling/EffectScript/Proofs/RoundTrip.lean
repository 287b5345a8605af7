import EffectScript.Proofs.FreshParser
import EffectScript.Proofs.PrimaryReading

/-!
# Parsing undoes printing

Each constructor of a phrase prints a piece that is read back if its parts are, and a slot gives its
parent a piece that fits.  So every printed phrase is read back, with any parentheses beyond the
necessary ones, and a fresh parser in front of it consumes all of it and builds its tree.
-/

namespace EffectScript.Language

namespace Piece

/-! ### Slots -/

theorem Reads.place {piece : Piece} {node : Node} (reads : piece.Reads node) (slot : Slot)
    (wrapped : Bool) : (piece.place slot wrapped).Reads node := by
  rw [Piece.place]
  split
  · exact reads
  · exact reads_parenthesized reads

theorem rank_place_le (piece : Piece) (slot : Slot) (wrapped : Bool) :
    (piece.place slot wrapped).level.rank ≤ slot.limit.rank := by
  rw [Piece.place]
  split
  · rename_i bare
    simp only [fits, Bool.and_eq_true, decide_eq_true_eq] at bare
    exact bare.1
  · exact Nat.zero_le _

end Piece

mutual

/-- Every printed phrase is read back. -/
theorem Phrase.reads_print (wraps : Slot → Phrase → Bool) :
    (phrase : Phrase) → (phrase.print wraps).Reads phrase.node
  | .number text => Piece.reads_number text
  | .string text => Piece.reads_string text
  | .host name => Piece.reads_host name
  | .named name => Piece.reads_named name
  | .element name index => Piece.reads_element name ((index.reads_print wraps).place _ _)
  | .call name arguments => Piece.reads_call name (reads_printAll wraps arguments)
  | .unary op operand =>
    Piece.reads_unary op ((operand.reads_print wraps).place _ _) (Piece.rank_place_le _ _ _)
  | .binary op left right =>
    Piece.reads_binary op ((left.reads_print wraps).place _ _) ((right.reads_print wraps).place _ _)
      (Piece.rank_place_le _ _ _) (Piece.rank_place_le _ _ _)
  | .assign op target value =>
    Piece.reads_assign op ((target.reads_print wraps).place _ _)
      ((value.reads_print wraps).place _ _) (Piece.rank_place_le _ _ _)
      (Piece.rank_place_le _ _ _)
  | .ifThen condition thenBranch =>
    Piece.reads_ifThen ((condition.reads_print wraps).place _ _)
      ((thenBranch.reads_print wraps).place _ _) (Piece.rank_place_le _ _ _)
      (Piece.rank_place_le _ _ _)
  | .ifThenElse condition thenBranch elseBranch =>
    Piece.reads_ifThenElse ((condition.reads_print wraps).place _ _)
      ((thenBranch.reads_print wraps).place _ _) ((elseBranch.reads_print wraps).place _ _)
      (Piece.rank_place_le _ _ _) (Piece.rank_place_le _ _ _) (Piece.rank_place_le _ _ _)
  | .whileLoop condition body =>
    Piece.reads_whileLoop ((condition.reads_print wraps).place _ _)
      ((body.reads_print wraps).place _ _) (Piece.rank_place_le _ _ _)
  | .block first second more =>
    Piece.reads_block ((first.reads_print wraps).place _ _)
      ((second.reads_print wraps).place _ _) (reads_printAll wraps more)

theorem reads_printAll (wraps : Slot → Phrase → Bool) :
    (phrases : List Phrase) → List.Forall₂ Piece.Reads (printAll wraps phrases) (nodeAll phrases)
  | [] => .nil
  | phrase :: phrases =>
    .cons ((phrase.reads_print wraps).place _ _) (reads_printAll wraps phrases)

end

/-! ### Printed words are kept by a fresh parser -/

/-- The word has a grammatical meaning. -/
def Word.isMeaningful (word : Word) : Bool :=
  word.kind != .comment && word.kind != .newline && word.kind != .endOfFile

namespace Piece

/-- All words of the piece have a meaning. -/
def isMeaningful (piece : Piece) : Bool :=
  piece.words.all Word.isMeaningful

theorem all_behind (mark : String) (pieces : List Piece) :
    (behind mark pieces).all Word.isMeaningful = pieces.all isMeaningful := by
  simp only [behind, List.all_flatMap, List.all_cons]
  rfl

theorem all_listed (pieces : List Piece) :
    (listed pieces).all Word.isMeaningful = pieces.all isMeaningful := by
  cases pieces with
  | nil => rfl
  | cons first more => rw [listed, List.all_append, all_behind, List.all_cons, isMeaningful]

theorem isMeaningful_parenthesized (inner : Piece) :
    inner.parenthesized.isMeaningful = inner.isMeaningful := by
  simp only [isMeaningful, parenthesized, List.all_cons, List.all_append, List.all_nil]
  exact Bool.and_true _

theorem isMeaningful_place {piece : Piece} (meaningful : piece.isMeaningful = true) (slot : Slot)
    (wrapped : Bool) : (piece.place slot wrapped).words.all Word.isMeaningful = true := by
  rw [Piece.place]
  split
  · exact meaningful
  · rwa [← isMeaningful_parenthesized] at meaningful

end Piece

mutual

theorem Phrase.isMeaningful_print (wraps : Slot → Phrase → Bool) :
    (phrase : Phrase) → (phrase.print wraps).isMeaningful = true
  | .number text | .string text | .host name | .named name => rfl
  | .element name index => by
    simp only [Phrase.print, Piece.element, Piece.isMeaningful, List.all_append, List.all_cons,
      Piece.isMeaningful_place (index.isMeaningful_print wraps)]
    rfl
  | .call name arguments => by
    simp only [Phrase.print, Piece.call, Piece.isMeaningful, List.all_append, List.all_cons,
      Piece.all_listed, all_isMeaningful_printAll wraps arguments]
    rfl
  | .unary op operand => by
    simp only [Phrase.print, Piece.unary, Piece.isMeaningful, List.all_cons,
      Piece.isMeaningful_place (operand.isMeaningful_print wraps)]
    rfl
  | .binary op left right => by
    simp only [Phrase.print, Piece.binary, Piece.isMeaningful, List.all_append, List.all_cons,
      Piece.isMeaningful_place (left.isMeaningful_print wraps),
      Piece.isMeaningful_place (right.isMeaningful_print wraps)]
    rfl
  | .assign op target value => by
    simp only [Phrase.print, Piece.assign, Piece.isMeaningful, List.all_append, List.all_cons,
      Piece.isMeaningful_place (target.isMeaningful_print wraps),
      Piece.isMeaningful_place (value.isMeaningful_print wraps)]
    rfl
  | .ifThen condition thenBranch => by
    simp only [Phrase.print, Piece.ifThen, Piece.isMeaningful, List.all_append, List.all_cons,
      Piece.isMeaningful_place (condition.isMeaningful_print wraps),
      Piece.isMeaningful_place (thenBranch.isMeaningful_print wraps)]
    rfl
  | .ifThenElse condition thenBranch elseBranch => by
    simp only [Phrase.print, Piece.ifThenElse, Piece.isMeaningful, List.all_append, List.all_cons,
      Piece.isMeaningful_place (condition.isMeaningful_print wraps),
      Piece.isMeaningful_place (thenBranch.isMeaningful_print wraps),
      Piece.isMeaningful_place (elseBranch.isMeaningful_print wraps)]
    rfl
  | .whileLoop condition body => by
    simp only [Phrase.print, Piece.whileLoop, Piece.isMeaningful, List.all_append, List.all_cons,
      Piece.isMeaningful_place (condition.isMeaningful_print wraps),
      Piece.isMeaningful_place (body.isMeaningful_print wraps)]
    rfl
  | .block first second more => by
    have others := all_isMeaningful_printAll wraps more
    simp only [Phrase.print, Piece.block, Piece.isMeaningful, List.all_append, List.all_cons,
      Piece.all_behind, Piece.isMeaningful_place (first.isMeaningful_print wraps),
      Piece.isMeaningful_place (second.isMeaningful_print wraps), others]
    rfl

theorem all_isMeaningful_printAll (wraps : Slot → Phrase → Bool) :
    (phrases : List Phrase) → (printAll wraps phrases).all Piece.isMeaningful = true
  | [] => rfl
  | phrase :: phrases => by
    simp only [printAll, List.all_cons, Piece.isMeaningful,
      Piece.isMeaningful_place (phrase.isMeaningful_print wraps)]
    exact all_isMeaningful_printAll wraps phrases

end

/-- A fresh parser stands in front of the whole printed phrase. -/
theorem spells_ofTokens {wraps : Slot → Phrase → Bool} {phrase : Phrase} {tokens : List Token}
    (printed : tokens.map Token.word = (phrase.print wraps).words) :
    Spells (phrase.print wraps).words (Parser.ofTokens tokens).rest [] := by
  have meaningful := phrase.isMeaningful_print wraps
  rw [Piece.isMeaningful, ← printed, List.all_map, List.all_eq_true] at meaningful
  rw [Parser.ofTokens_rest, ← printed]
  · exact spells_map tokens
  · intro token member
    have kinds := meaningful token member
    simp only [Function.comp_apply, Word.isMeaningful, Token.word, Bool.and_eq_true, bne_iff_ne,
      ne_eq] at kinds
    simp [Token.isTrivia, Token.isEndOfFile, kinds]

/-! ### Whole sources -/

/-- If the budget is enough, the step reads all tokens and gives a value of the given look;
otherwise it is refused. -/
def Parser.ReadsWhole {α β : Type} (parser : Parser) (step : Parse α) (enough : Prop)
    (look : α → β) (value : β) : Prop :=
  (enough → ∃ found, (parser.run step).1 = .ok found ∧ look found = value ∧
    (parser.run step).2.atEnd = true) ∧
  (¬enough → ∃ error, (parser.run step).1 = .error error)

theorem Parser.readsWhole_of_ensures {α β : Type} {parser : Parser} {step : Parse α}
    {enough : Prop} {look : α → β} {value : β}
    (ensured : step.Ensures parser
      (fun found after => enough ∧ look found = value ∧ after.rest = []) (fun _ => ¬enough)) :
    parser.ReadsWhole step enough look value := by
  cases outcome : (parser.run step).1 with
  | ok found =>
    obtain ⟨holds, same, finished⟩ := ensured.run_ok outcome
    refine ⟨fun _ => ⟨found, outcome, same, ?_⟩, fun scarce => absurd holds scarce⟩
    simp [Parser.atEnd, finished]
  | error error =>
    have scarce := ensured.run_error outcome
    exact ⟨fun holds => absurd holds scarce, fun _ => ⟨error, outcome⟩⟩

theorem Piece.ends_of_isEndOfFile (piece : Piece) {token : Token}
    (finish : token.isEndOfFile = true) : piece.ends token = true := by
  have kind : token.kind = .endOfFile := by simpa [Token.isEndOfFile] using finish
  simp [Piece.ends, Token.endsExpression, Token.endsName, Token.isPunctuation, Token.is, kind]

section Source

variable {wraps : Slot → Phrase → Bool} {phrase : Phrase} {tokens : List Token}
  (printed : tokens.map Token.word = (phrase.print wraps).words)
include printed

theorem readsWhole_expression :
    (Parser.ofTokens tokens).ReadsWhole Parse.expression
      ((phrase.print wraps).expressionCharge ≤ nestingLimit) Node.unnumbered phrase.node := by
  have ends := (phrase.print wraps).ends_of_isEndOfFile (Parser.ofTokens_finish tokens)
  have reads := (phrase.reads_print wraps).expression nestingLimit (Parser.ofTokens tokens) []
    (spells_ofTokens printed) ends
  refine Parser.readsWhole_of_ensures (reads.imp ?_ fun _ => id)
  rintro found after ⟨enough, same, rest, _⟩
  exact ⟨enough, same, rest⟩

theorem readsWhole_program :
    (Parser.ofTokens tokens).ReadsWhole Parse.program
      ((phrase.print wraps).statementCharge ≤ nestingLimit)
      (fun program => unnumberedAll program.items) [phrase.node] := by
  have ends := (phrase.print wraps).ends_of_isEndOfFile (Parser.ofTokens_finish tokens)
  have spells := spells_ofTokens printed
  have reads := phrase.reads_print wraps
  obtain ⟨token, later, rest, plain, noMark⟩ := reads.opens.front spells
  have shorter := reads.opens.length_lt spells
  refine Parser.readsWhole_of_ensures ?_
  rw [Parse.ensures_program, Parser.allowance,
    Parse.ensures_itemsWithin_of_statement rest (noMark ";" (by decide)) plain]
  have consumes := (MoveLaw.consumption.grammar nestingLimit).statement (Parser.ofTokens tokens)
  refine ((reads.statement nestingLimit _ [] spells ends).and consumes).imp ?_
    fun _ refused => refused.1
  rintro found after ⟨⟨enough, same, finished, _⟩, consumed⟩
  rw [Parser.Consumes.ensureProgress_eq consumed (by rwa [finished]),
    Parse.ensures_itemsWithin_of_finished finished]
  exact ⟨enough, by rw [unnumberedAll, unnumberedAll, same], finished⟩

end Source

/-- A printed phrase is read back.  Whatever places its words have, and wherever there are more
parentheses than necessary, a fresh parser reads the whole as one statement and as one expression
with the tree of the phrase, exactly if its nesting budget covers the charge of the phrase. -/
theorem parse_print (wraps : Slot → Phrase → Bool) (phrase : Phrase) (tokens : List Token)
    (printed : tokens.map Token.word = (phrase.print wraps).words) :
    (Parser.ofTokens tokens).ReadsWhole Parse.program
        ((phrase.print wraps).statementCharge ≤ nestingLimit)
        (fun program => unnumberedAll program.items) [phrase.node] ∧
      (Parser.ofTokens tokens).ReadsWhole Parse.expression
        ((phrase.print wraps).expressionCharge ≤ nestingLimit) Node.unnumbered phrase.node :=
  ⟨readsWhole_program printed, readsWhole_expression printed⟩

/-- Parentheses around every compound child that does not continue a chain of unary operators, the
left of a run of binary operators or the right of an assignment. -/
def fullParentheses (slot : Slot) (child : Phrase) : Bool :=
  match slot, child with
  | .operand, _ | .left, _ | .target, _ | .value, _ => false
  | _, .unary .. | _, .binary .. | _, .assign .. => true
  | _, .ifThen .. | _, .ifThenElse .. | _, .whileLoop .. => true
  | _, _ => false

/-- The variable `x`. -/
def sampleVariable : Phrase :=
  .named ⟨⟨"x", by decide⟩, rfl, by decide +kernel⟩

/-- A loop whose body is a block of an assignment and a conditional. -/
def sampleLoop : Phrase :=
  .whileLoop (.binary .lt sampleVariable (.number "8"))
    (.block (.assign .add sampleVariable (.unary .neg (.unary .neg (.number "1"))))
      (.ifThenElse (.binary .gt sampleVariable (.number "3"))
        (.element ⟨"buf", by decide⟩ sampleVariable)
        (.call ⟨"f", by decide⟩ [.host ⟨.slider 1, by simp [sliderCount]⟩, sampleVariable]))
      [])

/-- The tokens of the loop, all at one place. -/
def sampleTokens : List Token :=
  [(.keyword, "while"), (.punctuation, "("), (.punctuation, "("), (.identifier, "x"),
   (.operator, "<"), (.number, "8"), (.punctuation, ")"), (.punctuation, ")"),
   (.punctuation, "("), (.punctuation, "("), (.identifier, "x"), (.operator, "+="),
   (.operator, "-"), (.operator, "-"), (.number, "1"), (.punctuation, ")"),
   (.punctuation, ";"), (.punctuation, "("), (.punctuation, "("), (.identifier, "x"),
   (.operator, ">"), (.number, "3"), (.punctuation, ")"), (.operator, "?"),
   (.identifier, "buf"), (.punctuation, "["), (.identifier, "x"), (.punctuation, "]"),
   (.punctuation, ":"), (.identifier, "f"), (.punctuation, "("), (.identifier, "slider2"),
   (.punctuation, ","), (.identifier, "x"), (.punctuation, ")"), (.punctuation, ")"),
   (.punctuation, ")")].map fun (kind, text) => ⟨kind, text, 1, 1⟩

theorem parse_print_sampleLoop :
    sampleTokens.map Token.word = (sampleLoop.print fullParentheses).words ∧
      ∃ program, parsed sampleTokens = .ok program ∧
        unnumberedAll program.items = [sampleLoop.node] := by
  have printed : sampleTokens.map Token.word = (sampleLoop.print fullParentheses).words := by
    decide +kernel
  obtain ⟨program, outcome, same, _⟩ :=
    (parse_print fullParentheses sampleLoop sampleTokens printed).1.1 (by decide +kernel)
  exact ⟨printed, program, outcome, same⟩

end EffectScript.Language
