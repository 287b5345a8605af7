import EffectScript.Proofs.FreshParser
import EffectScript.Proofs.GrammarLaw

/-!
# The end of a program

Parsing a program obeys the laws of the grammar, reads all tokens and hands out the tables.  At an
idle token, such as the end, no expression begins or goes on: zero takes the place of one, nothing
is consumed and nothing is refused.  A program that stands at the end has no items.
-/

namespace EffectScript.Language

/-! ### Whole steps -/

theorem MoveLaw.consumption_marks (parser : Parser) (name : String) :
    consumption.moves parser [.marker name] parser :=
  .refl parser

theorem MoveLaw.governs_expression (law : MoveLaw) :
    law.Governs Node.mentions Parse.expression := by
  intro parser
  rw [Parse.expression, Parse.available]
  simp only [Parse.ensures_bind, Parse.ensures_inspect, Parse.ensures_pure]
  exact (law.grammar (nestingLimit - parser.depth)).expression parser

/-- Parsing a program obeys a law that permits markers, and then hands out the tables. -/
theorem MoveLaw.ensures_program {law : MoveLaw}
    (marks : ∀ parser name, law.moves parser [.marker name] parser) (parser : Parser) :
    Parse.program.Ensures parser
      (fun program _ => ∃ last, law.moves parser (mentionsAll program.items) last ∧
        program.symbols = last.symbols.names.toList ∧
        program.functions = last.functions.names.toList)
      (law.fails parser) := by
  rw [Parse.ensures_program]
  have governs := (law.grammar (nestingLimit - parser.depth)).statement
  exact (governs_itemsWithin marks governs parser.allowance parser).imp
    (fun items last moved => ⟨last, moved, rfl, rfl⟩) fun _ => id

/-! ### Idle tokens -/

namespace Token

/-- Whether a primary begins with a token. -/
def beginsPrimary (token : Token) : Bool :=
  match token.kind with
  | .number | .string => true
  | .identifier => !token.isSectionMarker
  | .keyword => token.text == "if" || token.text == "while"
  | .punctuation => token.text == "("
  | _ => false

/-- No operand begins with a token. -/
structure NoOperand (token : Token) : Prop where
  noUnary : token.operator? UnaryOp.ofSymbol? = none
  noPrimary : token.beginsPrimary = false

/-- No expression begins or goes on with a token. -/
structure Idle (token : Token) : Prop extends token.NoOperand where
  noBinary : token.operator? BinaryOp.ofSymbol? = none
  noCondition : token.isOperator "?" = false
  noAssignment : token.operator? AssignOp.ofSymbol? = none

theorem idle_of_end {token : Token} (ends : token.kind = .endOfFile) : token.Idle := by
  have noOperator {α : Type} (ofSymbol? : String → Option α) :
      token.operator? ofSymbol? = none := by
    simp [operator?, ends]
  refine ⟨⟨noOperator _, ?_⟩, noOperator _, ?_, noOperator _⟩
  · simp [beginsPrimary, ends]
  · simp [isOperator, is, ends]

end Token

namespace Parse

/-- The marker of a section is passed. -/
theorem ensures_sectionItem_length {statement : Parse Node}
    (consumes : MoveLaw.consumption.Governs Node.mentions statement) {parser : Parser}
    (remaining : parser.rest ≠ []) :
    (sectionItem statement).Ensures parser
      (fun _ after => after.rest.length < parser.rest.length) (fun _ => True) := by
  simp only [sectionItem, ensures_bind, ensures_current, ensures_advance, ensures_pure]
  refine (MoveLaw.governs_statements consumes _ _).imp (fun body after consumed => ?_)
    fun _ _ => trivial
  have fewer := Parser.Consumes.length_le consumed
  obtain ⟨token, later, shape⟩ := List.exists_cons_of_ne_nil remaining
  simp only [Parser.advance, shape, List.length_cons] at fewer ⊢
  omega

/-- Items are parsed up to the end. -/
theorem ensures_itemsWithin_finished {statement : Parse Node}
    (consumes : MoveLaw.consumption.Governs Node.mentions statement) (allowance : List Token)
    (parser : Parser) (enough : parser.rest.length < allowance.length) :
    (itemsWithin statement allowance).Ensures parser (fun _ after => after.rest = [])
      (fun _ => True) := by
  induction allowance generalizing parser with
  | nil => exact absurd enough (Nat.not_lt_zero _)
  | cons round allowance ih =>
    have shorter := (Parser.Consumes.skipSeparators parser).length_le
    rw [List.length_cons] at enough
    rw [itemsWithin]
    simp only [ensures_bind, ensures_modify, ensures_inspect]
    split
    · rename_i finished
      exact List.isEmpty_iff.1 finished
    · rename_i unfinished
      have remaining : parser.skipSeparators.rest ≠ [] := by
        simpa [Parser.atEnd] using unfinished
      simp only [ensures_bind, ensures_current]
      split
      · simp only [ensures_bind, ensures_pure]
        refine (ensures_sectionItem_length consumes remaining).imp (fun item after fewer => ?_)
          fun _ => id
        exact ih after (by omega)
      · simp only [ensures_bind, ensures_inspect, ensures_modify, ensures_pure]
        refine (consumes _).imp (fun item after consumed => ?_) fun _ _ => trivial
        have fewer := Parser.Consumes.ensureProgress_length consumed remaining
        exact ih _ (by omega)

section Idle

variable {parser : Parser} (idle : parser.current.Idle)

theorem ensures_primary_of_missing {statement expression : Parse Node}
    (missing : parser.current.beginsPrimary = false) (good : Node → Parser → Prop)
    (bad : Parser → Prop) :
    (primary statement expression).Ensures parser good bad ↔
      (missingOperand parser.current).Ensures parser good bad := by
  rw [Token.beginsPrimary] at missing
  rw [primary]
  simp only [ensures_bind, ensures_current]
  cases kind : parser.current.kind with
  | number | string =>
    rw [kind] at missing
    contradiction
  | identifier | keyword | punctuation =>
    rw [kind] at missing
    simp_all
  | operator | comment | newline | endOfFile => exact Iff.rfl

include idle

theorem ensures_unary_of_idle (budget : Nat) :
    (grammar budget).unary.Ensures parser
      (fun node after => node = .number 0.0 ∧ ∃ message, after = parser.note message)
      (fun _ => False) := by
  have missing (deeper statement expression : Parse Node) :
      (unaryBody deeper statement expression).Ensures parser
        (fun node after => node = .number 0.0 ∧ ∃ message, after = parser.note message)
        (fun _ => False) := by
    simp only [unaryBody, ensures_bind, ensures_current, idle.noUnary,
      ensures_primary_of_missing idle.noPrimary]
    exact ⟨rfl, _, rfl⟩
  cases budget with
  | zero => exact missing _ _ _
  | succ budget => exact missing _ _ _

theorem ensures_run_of_idle (budget : Nat) (left : Node) :
    ((grammar budget).run left).Ensures parser (fun node after => node = left ∧ after = parser)
      (fun _ => False) := by
  have ended (deeper : BinaryOp → Node → Parse Node) :
      (runBody deeper left).Ensures parser (fun node after => node = left ∧ after = parser)
        (fun _ => False) := by
    simp [runBody, idle.noBinary]
  cases budget with
  | zero =>
    simp only [grammar, Grammar.exhausted]
    exact ended _
  | succ budget =>
    simp only [grammar, Grammar.deepen]
    exact ended _

/-- At an idle token there is no expression, whose place zero takes. -/
theorem ensures_expressionBody_of_idle (budget : Nat) :
    (expressionBody (grammar budget).unary (grammar budget).run
      (grammar budget).expression).Ensures parser
        (fun node after => node = .number 0.0 ∧ ∃ message, after = parser.note message)
        (fun _ => False) := by
  rw [expressionBody, conditional]
  simp only [ensures_bind, ensures_current]
  refine (ensures_unary_of_idle idle budget).imp (fun left after missing => ?_) fun _ => id
  obtain ⟨rfl, message, rfl⟩ := missing
  have same : (parser.note message).current.Idle := idle
  refine (ensures_run_of_idle same budget (.number 0.0)).imp (fun node after unmoved => ?_)
    fun _ => id
  obtain ⟨rfl, rfl⟩ := unmoved
  simp only [same.noCondition, Bool.false_eq_true, if_false, ensures_pure, same.noAssignment]
  exact ⟨trivial, message, rfl⟩

end Idle

end Parse

namespace Parser

/-- Everything was read and the tables were handed out. -/
structure Spent (parser : Parser) : Prop where
  rest_eq : parser.rest = []
  symbols_eq : parser.symbols.names = #[]
  functions_eq : parser.functions.names = #[]

end Parser

/-- Once a program was parsed, everything is spent. -/
theorem ensures_program_spent (parser : Parser) :
    Parse.program.Ensures parser (fun _ after => after.Spent ∧ parser.Consumes after)
      (fun _ => True) := by
  rw [Parse.ensures_program]
  have consumes := (MoveLaw.consumption.grammar (nestingLimit - parser.depth)).statement
  have finished := Parse.ensures_itemsWithin_finished consumes parser.allowance parser
    (by simp [Parser.allowance])
  have consumed := MoveLaw.governs_itemsWithin MoveLaw.consumption_marks consumes
    parser.allowance parser
  refine (finished.and consumed).imp (fun items after ended => ?_) fun _ _ => trivial
  exact ⟨⟨ended.1, rfl, rfl⟩, Parser.Consumes.trans ended.2 ⟨List.suffix_refl _, rfl, rfl⟩⟩

namespace Parser.Spent

variable {parser : Parser} (spent : parser.Spent)

include spent

theorem ensures_expression (ends : parser.finish.isEndOfFile = true) :
    Parse.expression.Ensures parser
      (fun node after => node.mentions = [] ∧ after.Spent ∧ after.finish = parser.finish)
      (fun after => after.Spent ∧ after.finish = parser.finish) := by
  have current : parser.current.kind = .endOfFile := by
    simpa [Parser.current, spent.rest_eq, Token.isEndOfFile] using ends
  have idle := Token.idle_of_end current
  rw [Parse.expression, Parse.available]
  simp only [Parse.ensures_bind, Parse.ensures_inspect, Parse.ensures_pure]
  cases nestingLimit - parser.depth with
  | zero => exact ⟨⟨spent.rest_eq, spent.symbols_eq, spent.functions_eq⟩, rfl⟩
  | succ budget =>
    refine (Parse.ensures_expressionBody_of_idle idle budget).imp (fun node after ended => ?_)
      fun _ => False.elim
    obtain ⟨rfl, message, rfl⟩ := ended
    exact ⟨rfl, ⟨spent.rest_eq, spent.symbols_eq, spent.functions_eq⟩, rfl⟩

theorem ensures_program :
    Parse.program.Ensures parser
      (fun program after => program = ⟨[], [], []⟩ ∧ after.Spent ∧ after.finish = parser.finish)
      (fun _ => False) := by
  rw [Parse.ensures_program, Parse.ensures_itemsWithin_of_finished spent.rest_eq]
  refine ⟨?_, ⟨spent.rest_eq, rfl, rfl⟩, rfl⟩
  simp [NameTable.release, spent.symbols_eq, spent.functions_eq]

end Parser.Spent

end EffectScript.Language
