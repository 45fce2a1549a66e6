import Mathlib.Tactic.TypeStar

/-!
# Service errors

The error type of the service.  A variant that wraps another library's error
keeps that error's text.
-/

namespace PushCache

/-- `MyError`. -/
inductive MyError where
  | message (text : String)
  | badRequest (text : String)
  | notFound (text : String)
  | kafkaError (text : String)
  | avroError (text : String)
  deriving DecidableEq

end PushCache
