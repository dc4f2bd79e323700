import FindSelect.Find.Call

namespace FindSelect

/-- How much detail an event adds. -/
inductive Level where
  | debug
  | trace
  deriving DecidableEq, Repr

/-- A step of the work that was completed. -/
inductive Event where
  /-- A call of so many bytes was taken from the input. -/
  | receivedCall (bytes : Nat)
  /-- A call was read. -/
  | parsedCall (call : FindCall)
  /-- An entry of a condition document became a clause. -/
  | compiledCondition (key clause : String)
  /-- A statement was written. -/
  | compiledSelect (sql : String)
  deriving DecidableEq

namespace Event

def level : Event → Level
  | .compiledCondition _ _ => .trace
  | _ => .debug

def message : Event → String
  | .receivedCall _ => "read find call from stdin"
  | .parsedCall _ => "parsed find call"
  | .compiledCondition _ _ => "compiled condition"
  | .compiledSelect _ => "compiled select"

/-- The named texts of an event, in order. -/
def fields : Event → List (String × String)
  | .receivedCall bytes => [("bytes", String.ofList (writeInt bytes))]
  | .parsedCall call =>
    [("table", call.table), ("conditions", call.conditions.display),
     ("projection", call.projection.display)]
  | .compiledCondition key clause => [("key", key), ("clause", clause)]
  | .compiledSelect sql => [("sql", sql)]

end Event

/-- A result together with the events on the way to it. A failure keeps the
    events that came before. -/
structure Traced (ε α : Type) where
  events : List Event
  result : Except ε α

namespace Traced

variable {ε ε' α β : Type}

/-- A result without events. -/
def of (result : Except ε α) : Traced ε α := ⟨[], result⟩

/-- Goes on with a value, if there is one; the events of both parts follow each
    other. -/
def andThen (x : Traced ε α) (f : α → Traced ε β) : Traced ε β :=
  match x.result with
  | .ok a => ⟨x.events ++ (f a).events, (f a).result⟩
  | .error e => ⟨x.events, .error e⟩

instance : Monad (Traced ε) where
  pure a := of (.ok a)
  bind := andThen

instance : MonadExcept ε (Traced ε) where
  throw e := of (.error e)
  tryCatch x handle := match x.result with
    | .ok _ => x
    | .error e => ⟨x.events ++ (handle e).events, (handle e).result⟩

/-- Reports an event. -/
def emit (event : Event) : Traced ε Unit := ⟨[event], .ok ()⟩

/-- Puts a failure into other words. -/
def mapError (f : ε → ε') (x : Traced ε α) : Traced ε' α := ⟨x.events, x.result.mapError f⟩

end Traced
end FindSelect
