import EffectScript.Proofs.PhraseSource
import EffectScript.Proofs.TreeHeight

/-!
# Sources with steep trees

A call whose argument is a product that begins with such a call again.  Each call costs one level of
the nesting budget for what it encloses, but the product behind it is charged only while it is read,
after the call at its front is complete.  So the calls and one product share the budget, while the
tree has all the products on one path: its height is the product of the two.
-/

namespace EffectScript

namespace Language

/-! ### Heights do not depend on numbers -/

mutual

theorem Node.height_unnumbered : ∀ node : Node, node.unnumbered.height = node.height
  | .sectionOf _ body => by simp [heightAll_unnumberedAll body]
  | .assign _ target value => by simp [target.height_unnumbered, value.height_unnumbered]
  | .binary _ left right => by simp [left.height_unnumbered, right.height_unnumbered]
  | .unary _ operand => by simp [operand.height_unnumbered]
  | .call _ _ arguments => by simp [heightAll_unnumberedAll arguments]
  | .var _ => rfl
  | .element _ index => by simp [index.height_unnumbered]
  | .number _ => rfl
  | .string _ => rfl
  | .ifThen condition thenBranch => by
    simp [condition.height_unnumbered, thenBranch.height_unnumbered]
  | .ifThenElse condition thenBranch elseBranch => by
    simp [condition.height_unnumbered, thenBranch.height_unnumbered, elseBranch.height_unnumbered]
  | .whileLoop condition body => by simp [condition.height_unnumbered, body.height_unnumbered]
  | .block body => by simp [heightAll_unnumberedAll body]

theorem heightAll_unnumberedAll :
    ∀ nodes : List Node, heightAll (unnumberedAll nodes) = heightAll nodes
  | [] => rfl
  | node :: rest => by simp [node.height_unnumbered, heightAll_unnumberedAll rest]

end

theorem Node.height_pos (node : Node) : 1 ≤ node.height := by
  cases node <;> simp

/-! ### Steep phrases -/

/-- A product of a phrase and a number of ones. -/
def product (first : Phrase) : Nat → Phrase
  | 0 => first
  | width + 1 => .binary .mul (product first width) (.number "1")

theorem unmarked_f : "f".toList.head? ≠ some '@' := by decide

/-- Calls within calls, each with a product as its argument. -/
def steep (width : Nat) : Nat → Phrase
  | 0 => .number "1"
  | levels + 1 => .call ⟨"f", unmarked_f⟩ [product (steep width levels) width]

theorem height_product (first : Phrase) (width : Nat) :
    (product first width).node.height = first.node.height + width := by
  induction width with
  | zero => rfl
  | succ width ih =>
    have positive := first.node.height_pos
    simp only [product, Phrase.node, Node.height, ih]
    omega

theorem height_steep (width levels : Nat) :
    (steep width levels).node.height = levels * (width + 1) + 1 := by
  induction levels with
  | zero => simp [steep, Phrase.node]
  | succ levels ih =>
    simp only [steep, Phrase.node, nodeAll, Node.height, heightAll, height_product, ih,
      Nat.max_zero, Nat.succ_mul]
    omega

/-! ### Printing them -/

theorem lexes_name : Word.Lexes ⟨.identifier, "f"⟩ :=
  ⟨'f', [], rfl, rfl, fun _ => rfl⟩

theorem lexes_marker : Word.Lexes ⟨.identifier, "@init"⟩ :=
  ⟨'@', ['i', 'n', 'i', 't'], rfl, rfl, fun _ => rfl⟩

theorem lexes_one : Word.Lexes ⟨.number, "1"⟩ :=
  ⟨'1', [], rfl, rfl, fun _ => rfl⟩

theorem lexes_opening : Word.Lexes ⟨.punctuation, "("⟩ :=
  ⟨'(', [], rfl, rfl, fun _ => rfl⟩

theorem lexes_closing : Word.Lexes ⟨.punctuation, ")"⟩ :=
  ⟨')', [], rfl, rfl, fun _ => rfl⟩

theorem lexes_times : Word.Lexes ⟨.operator, "*"⟩ :=
  ⟨'*', [], rfl, rfl, fun _ => rfl⟩

/-- No parentheses beyond the necessary ones. -/
def bare (_ : Slot) (_ : Phrase) : Bool := false

/-- A piece that can stand to the left of an operator, with a limit on what reading it takes. -/
structure Piece.Light (piece : Piece) (charge spine : Nat) : Prop where
  level : piece.level.rank ≤ Level.binary.rank
  charge : piece.charge ≤ charge
  spine : piece.spine ≤ spine
  lexes : ∀ word ∈ piece.words, word.Lexes

namespace Piece.Light

variable {piece : Piece} {charge spine : Nat}

theorem place (light : piece.Light charge spine) {slot : Slot}
    (room : Level.binary.rank ≤ slot.limit.rank) : piece.place slot false = piece := by
  have fits : piece.fits slot = true := by
    rw [Piece.fits, decide_eq_true_iff]
    exact Nat.le_trans light.level room
  simp [Piece.place, fits]

theorem one (charge : Nat) : (word .number "1").Light charge 0 where
  level := by decide
  charge := Nat.zero_le charge
  spine := Nat.le_refl 0
  lexes word member := by
    obtain rfl := List.mem_singleton.1 member
    exact lexes_one

theorem times (light : piece.Light charge spine) (room : spine < charge) :
    (binary .mul piece (word .number "1")).Light charge (spine + 1) where
  level := Nat.le_refl _
  charge := by
    have lightCharge := light.charge
    have lightSpine := light.spine
    simp only [binary, Piece.word]
    omega
  spine := Nat.succ_le_succ light.spine
  lexes word member := by
    rcases List.mem_append.1 member with inside | behind
    · exact light.lexes word inside
    · rcases List.mem_cons.1 behind with rfl | last
      · exact lexes_times
      · exact (one 0).lexes word last

theorem call (light : piece.Light charge spine) :
    (Piece.call "f" [piece]).Light (charge + 1) 0 where
  level := Nat.zero_le _
  charge := by
    have lightCharge := light.charge
    have bounded := light.level
    have noLoop : piece.level ≠ .loop := by
      intro loop
      rw [loop] at bounded
      contradiction
    simp only [Piece.call, heaviest, expressionCharge, noLoop, if_false]
    omega
  spine := Nat.le_refl 0
  lexes word member := by
    simp only [Piece.call, listed, behind, List.flatMap_nil, List.append_nil, List.mem_cons,
      List.mem_append, List.not_mem_nil, or_false] at member
    rcases member with rfl | rfl | inside | rfl
    · exact lexes_name
    · exact lexes_opening
    · exact light.lexes word inside
    · exact lexes_closing

end Piece.Light

theorem light_product {first : Phrase} {charge : Nat} (light : (first.print bare).Light charge 0)
    {width : Nat} (room : width ≤ charge) :
    ((product first width).print bare).Light charge width := by
  induction width with
  | zero => exact light
  | succ width ih =>
    have inner := ih (Nat.le_of_succ_le room)
    have right : (Piece.word .number "1").place .right false = Piece.word .number "1" := rfl
    rw [product, Phrase.print, Phrase.print, bare, bare, inner.place (Nat.le_refl _), right]
    exact inner.times room

theorem light_steep (width levels : Nat) :
    ((steep width levels).print bare).Light (width + levels) 0 := by
  induction levels with
  | zero => exact .one width
  | succ levels ih =>
    have inner := light_product ih (Nat.le_add_right width levels)
    rw [steep, Phrase.print, printAll, printAll, bare, inner.place (by decide)]
    exact inner.call

end Language

namespace Script

open EffectScript.Language

/-- The text of a steep phrase. -/
def steepSource (width levels : Nat) : String :=
  sectionText "@init" ((steep width levels).print bare).words

/-- Steep sources are accepted as long as the calls and one product fit the budget together, and
their trees are as high as all products together. -/
theorem compile_steepSource {width levels : Nat} (room : width + levels + 2 ≤ nestingLimit) :
    ∃ script, (compile (steepSource width levels)).value = .ok script ∧
      heightAll script.program.items = levels * (width + 1) + 2 := by
  have light := light_steep width levels
  have enough : ((steep width levels).print bare).statementCharge ≤ nestingLimit := by
    have charge := light.charge
    rw [Piece.statementCharge]
    split <;> omega
  obtain ⟨script, compiled, same⟩ := compile_phrase (by decide)
    (List.forall_mem_cons.2 ⟨lexes_marker, light.lexes⟩) enough
  refine ⟨script, compiled, ?_⟩
  rw [← heightAll_unnumberedAll, same]
  simp [height_steep]

/-- Five calls, with products of a front and 240 ones, are within the budget and make a tree that is
higher than four times the budget. -/
theorem height_compile_steepSource :
    ∃ script, (compile (steepSource 240 5)).value = .ok script ∧
      ¬∀ item ∈ script.program.items, item.height ≤ 4 * nestingLimit := by
  have room : 240 + 5 + 2 ≤ nestingLimit := by decide
  obtain ⟨script, compiled, height⟩ := compile_steepSource room
  refine ⟨script, compiled, fun low => ?_⟩
  have bounded := heightAll_le_iff.2 low
  rw [height] at bounded
  exact absurd bounded (by decide)

end Script

end EffectScript
