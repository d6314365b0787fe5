import MessagePattern.Invalid
import MessagePattern.Pattern.Error
import MessagePattern.Registry.Matcher

/-!
# Refusals

A request to compile or to match can be refused for a fault in its pattern or for an
argument of the wrong shape; and a match can be broken off, because an integer is too
long to be read or written or because a matcher fails.
-/

namespace MessagePattern

inductive Refusal where
  | pattern (error : PatternError)
  | invalid (reason : Invalid)
  | broken (fault : MatchFault)

def Refusal.message : Refusal → String
  | pattern error => error.message
  | invalid reason => reason.message
  | broken fault => fault.message

end MessagePattern
