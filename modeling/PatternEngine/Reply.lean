import PatternEngine.Value
/-!
# Replies

What comes back from a call into a runtime module: any number of values, or a message that was
raised.
-/
namespace PatternEngine

/-- The outcome of a call. -/
inductive Reply where
  | returned (values : List Value)
  | raised (message : Bytes)

end PatternEngine
