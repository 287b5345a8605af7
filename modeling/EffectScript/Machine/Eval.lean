import EffectScript.Machine.Context

/-!
# Evaluation

Evaluating a tree gives a value and changes the context.  Named variables and functions are found by
their numbers through `Bindings`, which were made when the script was installed.  Every loop is
bounded: after `loopLimit` rounds it ends without testing its condition again.
-/

namespace EffectScript.Machine

open EffectScript.Language

/-- Rounds after which a loop ends. -/
def loopLimit : Nat := 10000

/-- Arguments that are passed on; later ones are evaluated and dropped. -/
def argumentLimit : Nat := 8

/-- What the names of a program denote. -/
structure Bindings where
  /-- Cell of every variable, none if the arena had no room for it. -/
  slots : Array (Option Nat)
  /-- Function of every called name, none if there is no such function. -/
  functions : Array (Option Builtin)

namespace Bindings

/-- The cell of a variable. -/
def slot? (bindings : Bindings) (symbol : Nat) : Option Nat :=
  bindings.slots[symbol]?.join

/-- The function of a call. -/
def function? (bindings : Bindings) (function : Nat) : Option Builtin :=
  bindings.functions[function]?.join

end Bindings

namespace Context

/-- The value of a variable; what does not exist reads as zero. -/
def readVar (context : Context) (bindings : Bindings) : Var → Float
  | .host var => (context.host? var).getD 0.0
  | .named _ symbol =>
    match bindings.slot? symbol with
    | some address => context.arena.read address
    | none => 0.0

/-- Store to a variable; what does not exist stays so. -/
def assignVar (context : Context) (bindings : Bindings) (var : Var) (op : AssignOp)
    (value : Float) : Context :=
  match var with
  | .host var =>
    match context.host? var with
    | some old => context.setHost var (op.combine old value)
    | none => context
  | .named _ symbol =>
    match bindings.slot? symbol with
    | some address =>
      match context with
      | ⟨arena, sliders, spl0, spl1, srate, transport⟩ =>
        ⟨arena.update address (op.combine · value), sliders, spl0, spl1, srate, transport⟩
    | none => context

/-- The value of an array element. -/
def readElement (context : Context) (name : String) (index : Float) : Float :=
  match context.arena.elementAddress? name index with
  | some address => context.arena.read address
  | none => 0.0

end Context

/-- A computation that gives a value and changes the context. -/
abbrev Eval := StateM Context

namespace Eval

/-- Repeat a body while a condition holds, at most `rounds` times; the value is that of the last
round, or `last` if there is none. -/
def loop (condition body : Eval Float) : Nat → Float → Eval Float
  | 0, last => return last
  | rounds + 1, last => do
    if isTrue (← condition) then
      let value ← body
      loop condition body rounds value
    else
      return last

end Eval

mutual

/-- Evaluate a tree. -/
def eval (bindings : Bindings) : Node → Eval Float
  | .number value => return value
  | .string _ => return 0.0
  | .var var => do
    return (← get).readVar bindings var
  | .assign op target value => do
    let value ← eval bindings value
    match target with
    | .var var =>
      modify fun context => context.assignVar bindings var op value
      return value
    | _ => return 0.0
  | .binary op left right => do
    let left ← eval bindings left
    let right ← eval bindings right
    return op.apply left right
  | .unary op operand => do
    return op.apply (← eval bindings operand)
  | .call _ function arguments => do
    let values ← evalArguments bindings arguments
    match bindings.function? function with
    | some function => return function.apply (values.take argumentLimit)
    | none => return 0.0
  | .element name index => do
    let index ← eval bindings index
    return (← get).readElement name index
  | .ifThen condition thenBranch => do
    if isTrue (← eval bindings condition) then eval bindings thenBranch
    else return 0.0
  | .ifThenElse condition thenBranch elseBranch => do
    if isTrue (← eval bindings condition) then eval bindings thenBranch
    else eval bindings elseBranch
  | .whileLoop condition body =>
    Eval.loop (eval bindings condition) (eval bindings body) loopLimit 0.0
  | .block body => evalAll bindings 0.0 body
  | .sectionOf _ body => evalAll bindings 0.0 body

/-- Evaluate statements in sequence; the value is that of the last, or `last` if there is none. -/
def evalAll (bindings : Bindings) (last : Float) : List Node → Eval Float
  | [] => return last
  | node :: rest => do
    let value ← eval bindings node
    evalAll bindings value rest

/-- Evaluate arguments from left to right. -/
def evalArguments (bindings : Bindings) : List Node → Eval (List Float)
  | [] => return []
  | node :: rest => do
    let value ← eval bindings node
    let values ← evalArguments bindings rest
    return value :: values

end

end EffectScript.Machine
