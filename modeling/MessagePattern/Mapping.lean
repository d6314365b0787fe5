import MessagePattern.Invalid
import MessagePattern.Segment.Basic

/-!
# Field rules

The value of a segment is read from its fields by the rule for its kind. A rule
is the name of a field, a list of names of which the first that holds something
wins, or an extractor. A table of rules is handed over as values, along with what the
extractors among them read; it is checked entry by entry and then laid over the default
rules, kind by kind (`Rules.resolve`).

Rules that come by themselves, not in a table, are not checked beforehand. For
those `extractLoose` follows the value as it is, and what cannot name a field
is a fault only once it is reached.
-/

namespace MessagePattern

/-! ## Rules -/

/-- How the value of a segment is found. -/
inductive Rule where
  | field (name : String)
  /-- It is the value of the first of these fields that holds something. -/
  | firstOf (names : List String)
  /-- It is what an extractor reads off the segment; nothing if that fails. -/
  | extractor (read : Segment → Option Value)
  deriving Inhabited

/-- What the extractors of a host read off segments, by their names and arguments. -/
abbrev Extractors := String → Value → Segment → Option Value

/-- Those of a host that has none. -/
def Extractors.none : Extractors :=
  fun _ _ _ => Option.none

/-- The value of a field, and nothing where the field is missing. -/
def Segment.fieldOrNull (s : Segment) (name : String) : Value :=
  (s.field? name).getD .null

/-- The first of some values that holds something. -/
def firstHeld (values : List Value) : Value :=
  (values.find? (!·.isNull)).getD .null

/-- The value that a rule finds in a segment; nothing is a value too. -/
def Rule.extract (rule : Rule) (s : Segment) : Value :=
  match rule with
  | field name => s.fieldOrNull name
  | firstOf names => firstHeld (names.map s.fieldOrNull)
  | extractor read => (read s).getD .null

def Rule.ofValue? (extractors : Extractors) : Value → Option Rule
  | .text name => some (field name)
  | .extractor name argument => some (extractor (extractors name argument))
  | .list items => (items.mapM Value.text?).map firstOf
  | .tuple items => (items.mapM Value.text?).map firstOf
  | _ => none

/-! ## Tables of rules -/

/-- Rules by the kind of segment. -/
abbrev Rules := Table String Rule

/-- Rules as they are handed over: a table with keys of any sort, along with what its
extractors read, or a value that is no table at all. -/
inductive RawRules where
  | table (entries : List (Value × Value)) (extractors : Extractors)
  | other (found : Value)
  deriving Inhabited

namespace Rules

/-- The rules for the kinds that every host knows. -/
def defaults : Rules :=
  [("text", .field "text"),
   ("face", .field "id"),
   ("image", .firstOf ["file", "url", "path"]),
   ("at", .field "user_id")]

def checkEntry (extractors : Extractors) (entry : Value × Value) :
    Except Invalid (String × Rule) :=
  match entry.1 with
  | .text kind =>
    match Rule.ofValue? extractors entry.2 with
    | some rule => .ok (kind, rule)
    | none => .error (.ruleOf kind entry.2)
  | key => .error (.ruleKey key)

def ofRaw : RawRules → Except Invalid Rules
  | .table entries extractors => entries.mapM (checkEntry extractors)
  | .other found => .error (.rules found)

/-- The defaults with some rules laid over them; without rules, the defaults. -/
def resolve : Option RawRules → Except Invalid Rules
  | none => .ok defaults
  | some raw => (ofRaw raw).map defaults.setAll

end Rules

/-! ## Rules that were not checked -/

/-- Why a rule that was not checked cannot be followed. -/
inductive RuleFault where
  | invalid (reason : Invalid)
  /-- A name of a field that no table can be searched for, of the type named. -/
  | unsearchable (typeName : String)
  deriving Inhabited

def RuleFault.message : RuleFault → String
  | invalid reason => reason.message
  | unsearchable typeName => "unhashable type: '" ++ typeName ++ "'"

mutual

/-- The type that keeps a value from being searched for: lists and dictionaries
cannot be, nor can a tuple that holds one. -/
def Value.unsearchable? : Value → Option String
  | .list _ => some "list"
  | .dict _ => some "dict"
  | .tuple items => unsearchableItem? items
  | _ => none

def Value.unsearchableItem? : List Value → Option String
  | [] => none
  | v :: rest => (Value.unsearchable? v).or (Value.unsearchableItem? rest)

end

/-- The first value held by a field that one of the items names; only a text
names one. -/
def firstNamed (s : Segment) : List Value → Except RuleFault Value
  | [] => .ok .null
  | name :: rest =>
    match name.unsearchable? with
    | some typeName => .error (.unsearchable typeName)
    | none =>
      match name.text?.elim Value.null s.fieldOrNull with
      | .null => firstNamed s rest
      | v => .ok v

/-- The value that an unchecked rule finds in a segment. -/
def extractLoose (extractors : Extractors) (rule : Value) (s : Segment) :
    Except RuleFault Value :=
  match rule with
  | .text name => .ok (s.fieldOrNull name)
  | .extractor name argument => .ok ((extractors name argument s).getD .null)
  | .list names => firstNamed s names
  | .tuple names => firstNamed s names
  | other => .error (.invalid (.rule other))

end MessagePattern
