import MessagePattern.Table
import MessagePattern.Text.Digit
import MessagePattern.Text.Trim

/-!
# Command-line arguments

A grammar lists the options of a command; besides them it takes one argument, and
a *greedy* grammar takes everything behind its argument along with it. An option can
be shortened to any start of a long name that fits no other option, a value
can follow it behind an equals sign, and options of one letter can be run
together. Two dashes end the options.

Arguments are first marked one by one as options, plain arguments or the two
dashes, which is where ambiguous options are refused, and then taken in turn.
An option that asks for the version or for help stops at once, so it matters
what comes first.
-/

namespace MessagePattern.Arguments

/-! ## Grammars -/

inductive Effect where
  | help
  | version
  | flag (key : String)
  /-- Stores a value, which may have to be one of some choices. -/
  | store (key : String) (choices : Option (List String))

def Effect.takesValue : Effect → Bool
  | store _ _ => true
  | _ => false

/-- An option: its names, with their dashes, and its effect. -/
structure Opt where
  names : List String
  effect : Effect

/-- The options of a command, and whether its argument is greedy. -/
structure Grammar where
  options : List Opt
  greedy : Bool

def Grammar.named? (g : Grammar) (name : List Char) : Option Opt :=
  g.options.find? (·.names.contains (String.ofList name))

/-- Why arguments were not taken to their end. -/
inductive Stop where
  /-- They are not those of the command. -/
  | usage
  | help
  | version
  deriving DecidableEq, Repr

/-! ## Marks -/

/-- An option as it was found. -/
structure Hit where
  effect : Effect
  /-- Whether its name has a single dash. -/
  short : Bool
  /-- Whether an equals sign follows the name. -/
  joined : Bool
  /-- What follows the name in the same argument. -/
  given : Option (List Char)

inductive Mark where
  /-- An option, of the grammar or unknown. -/
  | option (hit : Option Hit)
  | argument
  | dashes

def isShortName : List Char → Bool
  | _ :: second :: _ => second != '-'
  | _ => true

/-- Whether an argument looks like a negative number, perhaps with a line feed
behind it. -/
def looksNegative (cs : List Char) : Bool :=
  let cs := if cs.getLast? == some '\n' then cs.dropLast else cs
  match cs with
  | '-' :: body =>
    let behind := body.dropWhile Text.isScriptDigit
    match behind with
    | [] => !body.isEmpty
    | '.' :: fraction => !fraction.isEmpty && fraction.all Text.isScriptDigit
    | _ => false
  | _ => false

/-- The ways in which an argument with a dash could be an option that is
shortened or has its value attached. -/
def Grammar.candidates (g : Grammar) (cs : List Char) : List Hit :=
  let names := g.options.flatMap fun o => o.names.map fun name => (name.toList, o.effect)
  if isShortName cs then
    names.filterMap fun (name, effect) =>
      if name = cs.take 2 then some ⟨effect, true, false, some (cs.drop 2)⟩
      else if cs.isPrefixOf name then some ⟨effect, isShortName name, false, none⟩
      else none
  else
    let (start, given) := Text.splitOnce ['='] cs
    names.filterMap fun (name, effect) =>
      if start.isPrefixOf name then some ⟨effect, isShortName name, given.isSome, given⟩
      else none

/-- Marks an argument that starts with a dash and has more than that. -/
def Grammar.markDashed (g : Grammar) (cs : List Char) : Except Stop Mark :=
  match g.named? cs with
  | some o => .ok (.option (some ⟨o.effect, isShortName cs, false, none⟩))
  | none =>
    let (name, given) := Text.splitOnce ['='] cs
    match given, g.named? name with
    | some given, some o => .ok (.option (some ⟨o.effect, isShortName name, true, some given⟩))
    | _, _ =>
      match g.candidates cs with
      | [hit] => .ok (.option (some hit))
      | _ :: _ :: _ => .error .usage
      | [] =>
        if looksNegative cs || cs.contains ' ' then .ok .argument else .ok (.option none)

def Grammar.mark (g : Grammar) (arg : String) : Except Stop Mark :=
  match arg.toList with
  | '-' :: c :: rest => g.markDashed ('-' :: c :: rest)
  | _ => .ok .argument

/-- Marks arguments; behind two dashes there are no options. -/
def Grammar.markAll (g : Grammar) : List String → Except Stop (List (Mark × String))
  | [] => .ok []
  | arg :: rest => do
    if arg = "--" then return (.dashes, arg) :: rest.map (Mark.argument, ·)
    else
      let mark ← g.mark arg
      return (mark, arg) :: (← g.markAll rest)

/-! ## Taking arguments -/

structure Taken where
  stored : Table String String := []
  flags : List String := []
  /-- The argument, with all that it took along. -/
  argument : Option (List String) := none
  /-- Arguments that nothing took. -/
  unknown : List String := []

/-- Effects to be carried out in turn, each with its value if that is known, and
an argument that is unknown. -/
structure Spread where
  effects : List (Effect × Option String)
  unknown : List String := []

def Spread.after (s : Spread) (effect : Effect) : Spread :=
  { s with effects := (effect, none) :: s.effects }

/-- The effects of an option with something behind its name: the value it needs,
or further options of one letter. -/
def Grammar.spread (g : Grammar) (effect : Effect) (short joined : Bool) :
    List Char → Except Stop Spread
  | [] => if effect.takesValue then .ok { effects := [(effect, some "")] } else .error .usage
  | letter :: more =>
    if effect.takesValue then
      .ok { effects := [(effect, some (String.ofList (letter :: more)))] }
    else if !short || joined || letter == '-' then .error .usage
    else
      match g.named? ['-', letter] with
      | none =>
        .ok { effects := [(effect, none)], unknown := [String.ofList ('-' :: letter :: more)] }
      | some o =>
        match more with
        | [] => .ok { effects := [(effect, none), (o.effect, none)] }
        | '=' :: value => (g.spread o.effect true true value).map (·.after effect)
        | c :: letters => (g.spread o.effect true false (c :: letters)).map (·.after effect)

def Grammar.effects (g : Grammar) (hit : Hit) : Except Stop Spread :=
  match hit.given with
  | none => .ok { effects := [(hit.effect, none)] }
  | some given => g.spread hit.effect hit.short hit.joined given

def Taken.perform (t : Taken) (effect : Effect) (value : String) : Except Stop Taken :=
  match effect with
  | .help => .error .help
  | .version => .error .version
  | .flag key => .ok { t with flags := t.flags ++ [key] }
  | .store key choices =>
    if choices.all (·.contains value) then .ok { t with stored := t.stored.set key value }
    else .error .usage

/-- Carries out effects in turn; `next` is the value of the one that lacks it. -/
def Taken.performAll (t : Taken) (next : String) :
    List (Effect × Option String) → Except Stop Taken
  | [] => .ok t
  | (effect, value) :: rest => do
    let t ← t.perform effect (value.getD next)
    t.performAll next rest

def Taken.leave (t : Taken) (arg : String) : Taken :=
  { t with unknown := t.unknown ++ [arg] }

def lacksValue (effects : List (Effect × Option String)) : Bool :=
  effects.any fun e => e.1.takesValue && e.2.isNone

def Grammar.take (g : Grammar) : List (Mark × String) → Taken → Except Stop Taken
  | [], t => .ok t
  | (.option none, arg) :: rest, t => g.take rest (t.leave arg)
  | (.option (some hit), _) :: rest, t => do
    let spread ← g.effects hit
    let t := { t with unknown := t.unknown ++ spread.unknown }
    if lacksValue spread.effects then
      match rest with
      | (.argument, value) :: rest => do
        let t ← t.performAll value spread.effects
        g.take rest t
      | _ => throw .usage
    else
      let t ← t.performAll "" spread.effects
      g.take rest t
  | (mark, arg) :: rest, t =>
    match mark, t.argument, g.greedy, rest with
    | .argument, none, true, rest =>
      .ok { t with argument := some (arg :: rest.map (·.2)) }
    | .dashes, none, true, (.argument, a) :: rest =>
      .ok { t with argument := some (arg :: a :: rest.map (·.2)) }
    | .argument, none, false, (.dashes, _) :: rest =>
      g.take rest { t with argument := some [arg] }
    | .argument, none, false, rest => g.take rest { t with argument := some [arg] }
    | .dashes, none, false, (.argument, a) :: rest =>
      g.take rest { t with argument := some [a] }
    | _, _, _, rest => g.take rest (t.leave arg)

def Grammar.read (g : Grammar) (args : List String) : Except Stop Taken := do
  g.take (← g.markAll args) {}

end MessagePattern.Arguments
