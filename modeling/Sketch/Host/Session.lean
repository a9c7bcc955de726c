import Sketch.Engine
import Sketch.Host.Directive
import Sketch.Host.ProgramFile

/-!
# Sessions at the prompt

A session holds an engine and the stored program. Every input is answered by the primitives that it
drew and then by the lines of its answer or by an error. `Session.converse` is the whole dialogue.
How an error is set off from other lines is up to the terminal, which hands over a function `bold`.
-/

namespace Sketch

/-- An engine and the stored program. -/
structure Session where
  engine : Engine
  program : Program

/-- An answer at the prompt: lines of text or an error. -/
abbrev Reply := Except Report (List String)

namespace Session

/-- A new session. -/
def initial : Session := ⟨.initial, .empty⟩

/-- What is shown before each input that follows an error, and before the first one. -/
def ready : String := "READY.\n"

/-- What is shown before anything else. -/
def greeting : String := "BOOSE\n" ++ ready

/-- The lines of a text, each followed by a line feed. -/
def printed (lines : List String) : String :=
  String.join (lines.map (· ++ "\n"))

/-- What is shown when a run is interrupted at an address. -/
def breakLine (a : Address) : String :=
  "BREAK IN " ++ toString (a.toNat + 1)

/-! ## Running the stored program -/

/-- Runs a program from an address. Before each line `interrupt` is asked, with the number of polls
before, whether to stop; the address of that line is then the result. The number of a line that
fails is set on the assertion that the failure has none. If it had one, there would be no result, as
if the bound were not enough. -/
def runFrom (program : Program) (interrupt : Nat → Bool) :
    (fuel polls : Nat) → Address → Engine → Option (Outcome (Option Address))
  | 0, _, _, _ => none
  | fuel + 1, polls, cursor, engine =>
    match program.line? cursor with
    | none => some (.ok none engine)
    | some line =>
      if interrupt polls then some (.ok (some cursor) engine)
      else
        match Engine.execute line cursor engine with
        | .ok next engine => runFrom program interrupt fuel (polls + 1) (next + 1) engine
        | .error stop engine =>
          (stop.failure.placed? ⟨cursor.toNat + 1, line⟩).map fun failure => .error failure engine

/-- The session and the answer after a run. -/
def conclude (session : Session) : Outcome (Option Address) → Session × Reply
  | .ok (some a) engine => ({ session with engine }, .ok [breakLine a])
  | .ok none engine => ({ session with engine }, .ok [])
  | .error failure engine => ({ session with engine }, .error failure.report)

/-- Runs the stored program. -/
def run (session : Session) (interrupt : Nat → Bool) (fuel : Nat) : Option (Session × Reply) :=
  (runFrom session.program interrupt fuel 0 0 session.engine.start).map session.conclude

/-- Checks a line and executes it if nothing is wrong with it. -/
def direct (session : Session) (interrupt : Nat → Bool) (fuel : Nat) (line : Line) :
    Option (Session × Reply) :=
  match session.engine.store.checkLine line with
  | .error failure => some (session, .error failure.report)
  | .ok _ =>
    (Engine.direct session.program interrupt fuel line session.engine).map session.conclude

/-! ## Answers -/

/-- The global variables and then the methods, as lines of a program. -/
def vars (store : Store) : List String :=
  store.vars.listing.map (fun (name, value) => name ++ " = " ++ Number.text value) ++
    store.methods.listing.map fun (name, method) =>
      "METHOD " ++ Bracketed.text ⟨name, method.parameters⟩

/-- The session with a program from a file. -/
def loaded (session : Session) (answer : Except FileFault ByteArray) : Session × Reply :=
  match Program.load answer with
  | .ok program => ({ session with program }, .ok [])
  | .error report => (session, .error report)

/-- The answer after a file was to be written. -/
def saved (session : Session) : Except FileFault Unit → Session × Reply
  | .ok _ => (session, .ok [])
  | .error fault => (session, .error fault.writing)

/-- Carries out a directive. -/
def perform (session : Session) (interrupt : Nat → Bool) (fuel : Nat) :
    Directive → Exchange (Option (Session × Reply))
  | .load name => .read name fun answer => some (session.loaded answer)
  | .save name =>
    if session.program.size = 0 then .done (some (session, .error Program.nothingToSave))
    else .write name session.program.text.toUTF8 fun answer => some (session.saved answer)
  | .list => .done (some (session, .ok (session.program.lines.toList.map (·.text))))
  | .new => .done (some (⟨session.engine.start, .empty⟩, .ok []))
  | .check =>
    match session.program.check with
    | .ok _ => .done (some (session, .ok ["OK"]))
    | .error failure => .done (some (session, .error failure.report))
  | .run => .done (session.run interrupt fuel)
  | .status => .done (some (session, .ok session.engine.canvas.pen.status))
  | .vars => .done (some (session, .ok (vars session.engine.store)))
  | .direct line => .done (session.direct interrupt fuel line)

/-- What is shown of an answer. -/
def replyText (bold : String → String) : Reply → String
  | .ok lines => printed lines
  | .error report => bold report.render ++ "\n" ++ ready

/-- Takes the primitives out of the picture and shows them before the answer. -/
def present (session : Session) (bold : String → String) (reply : Reply) : Session × String :=
  let (picture, engine) := session.engine.takePicture
  ({ session with engine }, printed (picture.toList.map Primitive.render) ++ replyText bold reply)

/-- Answers an input with the text that is shown before the next one is read. Blank input has no
answer. -/
def answer (session : Session) (bold : String → String) (interrupt : Nat → Bool) (fuel : Nat)
    (input : String) : Exchange (Option (Session × String)) :=
  if Text.trim input = "" then .done (some (session, ""))
  else
    (session.perform interrupt fuel (Directive.ofInput input)).map fun result =>
      result.map fun (session, reply) => session.present bold reply

/-- The answers to a sequence of inputs, and the state of the files afterwards. -/
def converse {σ : Type} (files : FileSystem σ) (bold : String → String) (interrupt : Nat → Bool)
    (fuel : Nat) : Session → σ → List String → Option (List String × σ)
  | _, state, [] => some ([], state)
  | session, state, input :: rest =>
    match (session.answer bold interrupt fuel input).run files state with
    | (none, _) => none
    | (some (session, shown), state) =>
      (converse files bold interrupt fuel session state rest).map fun (answers, state) =>
        (shown :: answers, state)

end Session

end Sketch
