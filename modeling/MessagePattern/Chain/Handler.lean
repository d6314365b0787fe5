import MessagePattern.Invalid

/-!
# Handlers

A handler makes one value of the values it is given, or fails. Its form says when it
does so: a plain handler answers at once; a deferred one answers with a promise
and does its work only when the promise is awaited; an eager one does its work
at once but still answers with a promise.
-/

namespace MessagePattern

inductive HandlerFault where
  /-- By a fault of its own, in these words. -/
  | failed (message : String)
  /-- It turned its arguments down. -/
  | invalid (reason : Invalid)

/-- When a handler does its work, and whether it answers with a promise. -/
inductive HandlerForm where
  | plain
  | deferred
  | eager
  deriving DecidableEq, Repr

/-- A handler. -/
structure Handler where
  name : String
  form : HandlerForm
  call : List Value → Except HandlerFault Value

namespace Handler

/-- A handler that answers at once and never fails. -/
def pure (name : String) (f : List Value → Value) : Handler :=
  ⟨name, .plain, fun args => .ok (f args)⟩

def arguments : Handler :=
  pure "h_args" .list

def count : Handler :=
  pure "h_count" fun args => .int args.length

def first : Handler :=
  pure "h_first" fun args => args.head?.getD (.text "no args")

/-- Answers with an entry of the dictionary that is its first argument. -/
def get (key : String) : Handler :=
  pure "h_get" fun args =>
    match args.head?.bind Value.entries? with
    | some entries => (Table.get? entries key).getD .null
    | none => .text "no dict"

def const (v : Value) : Handler :=
  pure "h_const" fun _ => v

/-- Adds to the integer that is its first argument. -/
def add (n : Int) : Handler :=
  pure "h_add" fun args =>
    match args.head? with
    | some (.int i) => .int (i + n)
    | _ => .text "no int"

def failing : Handler :=
  ⟨"h_raise", .plain, fun _ => .error (.failed "handler failed")⟩

def declining : Handler :=
  ⟨"h_invalid", .plain, fun args => .error (.invalid (.handlerInput args))⟩

/-- The handler that does the work of another when its promise is awaited. -/
def deferred (inner : Handler) : Handler :=
  ⟨"h_async", .deferred, inner.call⟩

/-- The handler that does the work of another at once and answers with a
promise. -/
def eager (inner : Handler) : Handler :=
  ⟨"h_future", .eager, inner.call⟩

end Handler

end MessagePattern
