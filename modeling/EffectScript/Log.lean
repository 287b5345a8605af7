/-!
# Log records

Some operations leave a trail for whoever runs them: a skipped token, an ignored header key, an
exhausted arena.  `Logged α` is a value together with the records noted while it was computed,
oldest first.  Records never influence a value: `value_bind` says that the value of a sequence is
computed from values alone.
-/

namespace EffectScript

/-- How urgently a record asks for attention. -/
inductive LogLevel where
  | trace
  | debug
  | warn
  deriving DecidableEq, Repr

/-- The upper-case label under which a level is listed. -/
def LogLevel.label : LogLevel → String
  | .trace => "TRACE"
  | .debug => "DEBUG"
  | .warn => "WARN"

/-- One noted message. -/
structure LogRecord where
  level : LogLevel
  message : String
  deriving DecidableEq, Repr

/-- A value with the records noted while it was computed, oldest first. -/
structure Logged (α : Type) where
  value : α
  records : List LogRecord

namespace Logged

/-- Put later records behind earlier ones.  When there are none, the earlier ones are not copied. -/
def chain (earlier : List LogRecord) : List LogRecord → List LogRecord
  | [] => earlier
  | record :: later => earlier ++ record :: later

@[simp]
theorem chain_eq_append (earlier later : List LogRecord) :
    chain earlier later = earlier ++ later := by
  cases later <;> simp [chain]

instance : Monad Logged where
  pure value := ⟨value, []⟩
  bind first next :=
    match first with
    | ⟨value, records⟩ =>
      match next value with
      | ⟨result, later⟩ => ⟨result, chain records later⟩

/-- Note one message. -/
def note (level : LogLevel) (message : String) : Logged Unit :=
  ⟨(), [⟨level, message⟩]⟩

variable {α β : Type}

@[simp]
theorem value_pure (value : α) : (pure value : Logged α).value = value := rfl

@[simp]
theorem records_pure (value : α) : (pure value : Logged α).records = [] := rfl

@[simp]
theorem value_bind (first : Logged α) (next : α → Logged β) :
    (first >>= next).value = (next first.value).value := rfl

@[simp]
theorem records_bind (first : Logged α) (next : α → Logged β) :
    (first >>= next).records = first.records ++ (next first.value).records :=
  chain_eq_append _ _

@[simp]
theorem value_note (level : LogLevel) (message : String) : (note level message).value = () := rfl

end Logged

end EffectScript
