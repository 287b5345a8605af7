import EffectScript.Json.Write
import EffectScript.Language.Tree

/-!
# Listings of script trees

Two texts for a tree: an s-expression with every number as the bits of its double, and a JSON value
in which each node is an object with its kind as the only key.
-/

namespace EffectScript.Language

/-- A double as sixteen hexadecimal digits of its bits; all that is not a number is `nan`. -/
def bitText (value : Float) : String :=
  if value.isNaN then "nan"
  else String.ofList (Json.hexadecimal 16 value.toBits.toNat)

/-- A parenthesized list of words. -/
def parenthesize (words : List String) : String :=
  "(" ++ String.intercalate " " words ++ ")"

/-- The s-expression of a variable. -/
def Var.listing : Var → String
  | .host var => parenthesize ["port", var.name]
  | .named name symbol => parenthesize ["named", name, toString symbol]

namespace Node

mutual

/-- The s-expression of a tree. -/
def listing : Node → String
  | .sectionOf name body => parenthesize ("section" :: name :: listingAll body)
  | .assign op target value =>
    parenthesize ["assign", op.label, listing target, listing value]
  | .binary op left right => parenthesize ["bin", op.label, listing left, listing right]
  | .unary op operand => parenthesize ["un", op.label, listing operand]
  | .call name function arguments =>
    parenthesize ("call" :: name :: toString function :: listingAll arguments)
  | .var reference => reference.listing
  | .element name index => parenthesize ["index", name, listing index]
  | .number value => parenthesize ["num", bitText value]
  | .string text => parenthesize ["str", Json.quote text]
  | .ifThen condition thenBranch => parenthesize ["if", listing condition, listing thenBranch]
  | .ifThenElse condition thenBranch elseBranch =>
    parenthesize ["if", listing condition, listing thenBranch, listing elseBranch]
  | .whileLoop condition body => parenthesize ["while", listing condition, listing body]
  | .block body => parenthesize ("block" :: listingAll body)

/-- The s-expressions of trees. -/
def listingAll : List Node → List String
  | [] => []
  | node :: rest => listing node :: listingAll rest

end

end Node

/-- An object with its kind as the only key. -/
def tagged (kind : String) (value : Json.Value) : Json.Value :=
  .object [(kind, value)]

/-- The JSON value of a variable. -/
def Var.json : Var → Json.Value
  | .host .spl0 => .string "Spl0"
  | .host .spl1 => .string "Spl1"
  | .host .srate => .string "Srate"
  | .host .tempo => .string "Tempo"
  | .host .beatPosition => .string "BeatPosition"
  | .host .playState => .string "PlayState"
  | .host .tsNum => .string "TsNum"
  | .host .tsDenom => .string "TsDenom"
  | .host (.slider index) => tagged "Slider" (.natural index)
  | .named name symbol =>
    tagged "Named" (.object [("name", .string name), ("symbol", .natural symbol)])

namespace Node

mutual

/-- The JSON value of a tree. -/
def json : Node → Json.Value
  | .sectionOf name body =>
    tagged "Section" (.object [("name", .string name), ("body", .array (jsonAll body))])
  | .assign op target value =>
    tagged "Assignment" (.object
      [("op", .string op.label), ("target", json target), ("value", json value)])
  | .binary op left right =>
    tagged "BinaryOp" (.object
      [("op", .string op.label), ("lhs", json left), ("rhs", json right)])
  | .unary op operand =>
    tagged "UnaryOp" (.object [("op", .string op.label), ("operand", json operand)])
  | .call name function arguments =>
    tagged "FunctionCall" (.object
      [("name", .string name), ("function", .natural function),
       ("args", .array (jsonAll arguments))])
  | .var reference => tagged "Variable" reference.json
  | .element name index =>
    tagged "ArrayAccess" (.object [("name", .string name), ("index", json index)])
  | .number value => tagged "Number" (.float value)
  | .string text => tagged "String" (.string text)
  | .ifThen condition thenBranch =>
    tagged "IfStatement" (.object
      [("condition", json condition), ("then_branch", json thenBranch), ("else_branch", .null)])
  | .ifThenElse condition thenBranch elseBranch =>
    tagged "IfStatement" (.object
      [("condition", json condition), ("then_branch", json thenBranch),
       ("else_branch", json elseBranch)])
  | .whileLoop condition body =>
    tagged "WhileLoop" (.object [("condition", json condition), ("body", json body)])
  | .block body => tagged "Block" (.array (jsonAll body))

/-- The JSON values of trees. -/
def jsonAll : List Node → List Json.Value
  | [] => []
  | node :: rest => json node :: jsonAll rest

end

end Node

/-- The JSON value of a program. -/
def Program.json (program : Program) : Json.Value :=
  .object
    [("items", .array (Node.jsonAll program.items)),
     ("symbols", .strings program.symbols),
     ("functions", .strings program.functions)]

end EffectScript.Language
