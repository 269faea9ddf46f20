/-!
# Log records

What a client tells of its work, in order, with the weight of each record.
-/

namespace WideColumn

/-- The weight of a log record. -/
inductive Level where
  /-- Detail for whoever follows the work step by step. -/
  | debug
  /-- What was done. -/
  | info
  /-- What went wrong. -/
  | error
  deriving DecidableEq, Repr

/-- The name of a weight. -/
def Level.label : Level → String
  | debug => "DEBUG"
  | info => "INFO"
  | error => "ERROR"

/-- A record of the log. -/
structure LogRecord where
  /-- The weight. -/
  level : Level
  /-- What is told. -/
  message : String
  deriving DecidableEq, Repr

end WideColumn
