/-!
# Operators

The twelve binary, three unary and five assignment operators, their symbols and their meaning on
doubles.  A comparison gives one or zero, every nonzero value counts as true, and a division by zero
gives zero.
-/

namespace EffectScript.Language

/-- Operators between two values. -/
inductive BinaryOp where
  | add
  | sub
  | mul
  | div
  | eq
  | ne
  | lt
  | gt
  | le
  | ge
  | and
  | or
  deriving DecidableEq, Repr

/-- Operators on one value. -/
inductive UnaryOp where
  | neg
  | plus
  | not
  deriving DecidableEq, Repr

/-- Ways to store a value: plainly, or combined with the value already there. -/
inductive AssignOp where
  | set
  | add
  | sub
  | mul
  | div
  deriving DecidableEq, Repr

/-- One for true, zero for false. -/
def truth (holds : Bool) : Float :=
  if holds then 1.0 else 0.0

/-- Every value but zero counts as true. -/
def isTrue (value : Float) : Bool :=
  value != 0.0

namespace BinaryOp

/-- The operator written with a symbol. -/
def ofSymbol? : String → Option BinaryOp
  | "+" => some add
  | "-" => some sub
  | "*" => some mul
  | "/" => some div
  | "==" => some eq
  | "!=" => some ne
  | "<" => some lt
  | ">" => some gt
  | "<=" => some le
  | ">=" => some ge
  | "&&" => some and
  | "||" => some or
  | _ => none

/-- The symbol of an operator. -/
def symbol : BinaryOp → String
  | add => "+"
  | sub => "-"
  | mul => "*"
  | div => "/"
  | eq => "=="
  | ne => "!="
  | lt => "<"
  | gt => ">"
  | le => "<="
  | ge => ">="
  | and => "&&"
  | or => "||"

/-- The name of an operator in listings. -/
def label : BinaryOp → String
  | add => "Add"
  | sub => "Sub"
  | mul => "Mul"
  | div => "Div"
  | eq => "Eq"
  | ne => "Ne"
  | lt => "Lt"
  | gt => "Gt"
  | le => "Le"
  | ge => "Ge"
  | and => "And"
  | or => "Or"

/-- The value of an operation. -/
def apply (op : BinaryOp) (left right : Float) : Float :=
  match op with
  | add => left + right
  | sub => left - right
  | mul => left * right
  | div => if right != 0.0 then left / right else 0.0
  | eq => truth (left == right)
  | ne => truth (left != right)
  | lt => truth (left < right)
  | gt => truth (right < left)
  | le => truth (left ≤ right)
  | ge => truth (right ≤ left)
  | and => truth (isTrue left && isTrue right)
  | or => truth (isTrue left || isTrue right)

@[simp]
theorem ofSymbol?_symbol (op : BinaryOp) : ofSymbol? op.symbol = some op := by
  cases op <;> rfl

end BinaryOp

namespace UnaryOp

/-- The operator written with a symbol. -/
def ofSymbol? : String → Option UnaryOp
  | "-" => some neg
  | "+" => some plus
  | "!" => some not
  | _ => none

/-- The symbol of an operator. -/
def symbol : UnaryOp → String
  | neg => "-"
  | plus => "+"
  | not => "!"

/-- The name of an operator in listings. -/
def label : UnaryOp → String
  | neg => "Neg"
  | plus => "Plus"
  | not => "Not"

/-- The value of an operation. -/
def apply (op : UnaryOp) (value : Float) : Float :=
  match op with
  | neg => -value
  | plus => value
  | not => truth (value == 0.0)

@[simp]
theorem ofSymbol?_symbol (op : UnaryOp) : ofSymbol? op.symbol = some op := by
  cases op <;> rfl

end UnaryOp

namespace AssignOp

/-- The operator written with a symbol. -/
def ofSymbol? : String → Option AssignOp
  | "=" => some set
  | "+=" => some add
  | "-=" => some sub
  | "*=" => some mul
  | "/=" => some div
  | _ => none

/-- The symbol of an operator. -/
def symbol : AssignOp → String
  | set => "="
  | add => "+="
  | sub => "-="
  | mul => "*="
  | div => "/="

/-- The name of an operator in listings. -/
def label : AssignOp → String
  | set => "Set"
  | add => "Add"
  | sub => "Sub"
  | mul => "Mul"
  | div => "Div"

/-- What is stored over an old value when a new one is assigned. -/
def combine (op : AssignOp) (old new : Float) : Float :=
  match op with
  | set => new
  | add => BinaryOp.add.apply old new
  | sub => BinaryOp.sub.apply old new
  | mul => BinaryOp.mul.apply old new
  | div => BinaryOp.div.apply old new

@[simp]
theorem ofSymbol?_symbol (op : AssignOp) : ofSymbol? op.symbol = some op := by
  cases op <;> rfl

end AssignOp

end EffectScript.Language
