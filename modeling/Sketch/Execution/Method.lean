import Sketch.Action
import Sketch.Bracketed
import Sketch.Operand

/-!
# Methods

A header enters a method into the table, and its block is skipped. A call opens a scope with the
arguments and goes to the header, after which the block comes next; the closing line goes back to
the line of the call. When a definition that stands directly in the block of a called method is
closed, the same line returns from the call.
-/

namespace Sketch

/-- A call that has been read: the name of the method and the values of the arguments. -/
structure Request where
  name : String
  values : List Number
  deriving DecidableEq, Repr

/-- A call that can be made: the method and the values of its arguments. -/
structure Invocation where
  name : String
  method : Method
  values : List Number
  deriving DecidableEq, Repr

/-- The parameters with their values. -/
def Invocation.scope (invocation : Invocation) : Scope :=
  Scope.ofBindings (invocation.method.parameters.zip invocation.values)

namespace Store

open Sketch.Action Sketch.Move

/-! ## Definitions -/

/-- The parameters are names, and none of them is listed twice. -/
def checkParameters : (seen parameters : List String) → Except Fault Unit
  | _, [] => .ok ()
  | seen, name :: rest => do
    Name.check name
    if seen.contains name then .error (.duplicateParameter name)
    else checkParameters (name :: seen) rest

/-- No other line defines a method of this name. -/
def checkUndefined (methods : Methods) (name : String) (cursor : Address) : Except Fault Unit :=
  match methods.find? name with
  | some method => if method.start = cursor then .ok () else .error (.alreadyDefined name)
  | none => .ok ()

/-- Reads a method header at an address: the name and the parameters. -/
def readHeader (store : Store) (tokens : List String) (cursor : Address) :
    Except Fault Bracketed :=
  match tokens with
  | [_, word] =>
    match Bracketed.parse? word with
    | none => .error .headerShape
    | some signature => do
      Name.check signature.head
      checkParameters [] signature.items
      checkUndefined store.methods signature.head cursor
      .ok signature
  | _ => .error .headerShape

/-- The table with a method that it may already have. -/
def register (methods : Methods) (signature : Bracketed) (cursor : Address) :
    Except Fault Methods :=
  match methods.find? signature.head with
  | some _ => .ok methods
  | none => methods.insert signature.head ⟨signature.items, cursor, none⟩

/-- Enters a method and skips its block. -/
def define (tokens : List String) (cursor : Address) : Action Unit := do
  let signature ← inspect (·.readHeader tokens cursor)
  onMethods fun methods => register methods signature cursor
  onFlow (·.push ⟨.method, .skipping⟩)
  onFlow (·.beginDefinition signature.head)

/-! ## Calls -/

/-- Reads a call: there is such a method, and each argument stands for a number. -/
def readCall (store : Store) (tokens : List String) : Except Fault Request :=
  match tokens.head?.bind Bracketed.parse? with
  | none => .error .callShape
  | some call =>
    match store.methods.find? call.head with
    | none => .error (.undefinedMethod call.head)
    | some method =>
      if call.items.length = method.parameters.length then do
        let values ← call.items.mapM store.resolve
        .ok ⟨call.head, values⟩
      else .error .argumentCount

/-- Looks the method of a request up. -/
def invoke (store : Store) (request : Request) : Except Fault Invocation :=
  match store.methods.find? request.name with
  | some method => .ok ⟨request.name, method, request.values⟩
  | none => .error .methodVanished

/-- Reads a call and looks its method up again. -/
def findCall (store : Store) (tokens : List String) : Except Fault Invocation := do
  let request ← store.readCall tokens
  store.invoke request

/-- Opens a call and goes to the header of the method. -/
def call (tokens : List String) : Move Unit := do
  let invocation ← inspect (·.findCall tokens)
  onVariables (·.enter invocation.scope)
  onFlow (·.pushCall ⟨invocation.name, (← get).cursor⟩)
  onFlow (·.push ⟨.method, .executing⟩)
  goTo invocation.method.start

/-- Returns from the innermost call if its method is the innermost block. -/
def returnFromCall : Move Unit := do
  match (← get).store.flow.top? with
  | some ⟨.method, .executing⟩ =>
    let _ ← takeFlow Flow.pop
    let call ← takeFlow Flow.popCall
    leaveScope
    goTo call.returnTo
  | _ => pure ()

/-- Closes a method that is being called. -/
def closeMethod (tokens : List String) : Move Unit := do
  check (Keyword.checkAlone (.closes .method) tokens)
  returnFromCall

/-- Closes a definition and records its last line, and returns from the call in whose method the
definition stands. -/
def closeDefinition : Move Unit := do
  match ← endDefinition with
  | some name =>
    let cursor := (← get).cursor
    onMethods fun methods => .ok (methods.close name cursor)
  | none => pure ()
  returnFromCall

end Store

end Sketch
