import MessagePattern.Pattern.Compiler
import MessagePattern.Refusal

/-!
# Patterns as they are handed over

A pattern is a text that is compiled before it is used; where a message is to be
matched, the tokens of a pattern that was compiled before will do as well.
-/

namespace MessagePattern

/-- What a message is to be matched with. -/
inductive PatternSource where
  /-- A pattern, still to be compiled. -/
  | pattern (text : String)
  /-- The tokens of a pattern. -/
  | tokens (ts : List Token)
  /-- Something that is neither. -/
  | other (found : Value)

def compileValue : Value → Except Refusal (List Token)
  | .text pattern => (compile pattern).mapError .pattern
  | found => .error (.invalid (.pattern found))

/-- The tokens of what a message is to be matched with. -/
def PatternSource.resolve : PatternSource → Except Refusal (List Token)
  | pattern text => (compile text).mapError .pattern
  | tokens ts => .ok ts
  | other found => .error (.invalid (.tokens found))

end MessagePattern
