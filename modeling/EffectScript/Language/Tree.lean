import EffectScript.Language.Operator

/-!
# Script trees

The tree of a script body.  Named variables and called functions carry, beside their name, their
number in the tables of the program, so that names need not be looked up while a script runs.
-/

namespace EffectScript.Language

/-- Number of sliders that a script can address. -/
def sliderCount : Nat := 64

/-- Variables that the host and the script share. -/
inductive HostVar where
  /-- Left sample. -/
  | spl0
  /-- Right sample. -/
  | spl1
  /-- Sample rate. -/
  | srate
  | tempo
  | beatPosition
  | playState
  /-- Upper number of the time signature. -/
  | tsNum
  /-- Lower number of the time signature. -/
  | tsDenom
  /-- A slider, counted from zero. -/
  | slider (index : Nat)
  deriving DecidableEq, Repr

/-- The name of a host variable in scripts, where sliders are counted from one. -/
def HostVar.name : HostVar → String
  | spl0 => "spl0"
  | spl1 => "spl1"
  | srate => "srate"
  | tempo => "tempo"
  | beatPosition => "beat_position"
  | playState => "play_state"
  | tsNum => "ts_num"
  | tsDenom => "ts_denom"
  | slider index => "slider" ++ toString (index + 1)

/-- A variable as it stands in a tree. -/
inductive Var where
  | host (var : HostVar)
  /-- A variable of the script and its number in the program's table of symbols. -/
  | named (name : String) (symbol : Nat)
  deriving DecidableEq, Repr

/-- The name of a variable in scripts. -/
def Var.name : Var → String
  | host var => var.name
  | named name _ => name

/-- One node of a script tree. -/
inductive Node where
  /-- A section marker and its statements. -/
  | sectionOf (name : String) (body : List Node)
  /-- An assignment; only a variable can be stored to. -/
  | assign (op : AssignOp) (target value : Node)
  | binary (op : BinaryOp) (left right : Node)
  | unary (op : UnaryOp) (operand : Node)
  /-- A call and the number of the called function in the program's table. -/
  | call (name : String) (function : Nat) (arguments : List Node)
  | var (var : Var)
  /-- An element of a declared array. -/
  | element (name : String) (index : Node)
  | number (value : Float)
  | string (text : String)
  | ifThen (condition thenBranch : Node)
  | ifThenElse (condition thenBranch elseBranch : Node)
  | whileLoop (condition body : Node)
  /-- Statements in sequence; the value is that of the last. -/
  | block (body : List Node)

/-- A parsed script body. -/
structure Program where
  items : List Node
  /-- Names of script variables, by number. -/
  symbols : List String
  /-- Names of called functions, by number. -/
  functions : List String

namespace Program

/-- The sections at the top of a program, in source order. -/
def sections (program : Program) : List (String × List Node) :=
  program.items.filterMap fun item =>
    match item with
    | .sectionOf name body => some (name, body)
    | _ => none

end Program

end EffectScript.Language
