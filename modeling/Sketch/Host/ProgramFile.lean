import Sketch.Failure
import Sketch.Host.Exchange

/-!
# Programs on the disk

Reading a program from a file and writing it back. `Program.load` decodes the file as a whole;
`fileLines` cuts it into lines first and decodes each by itself.
-/

namespace Sketch

/-- The text of a file. -/
def fileText (content : ByteArray) : Except FileFault String :=
  match String.fromUTF8? content with
  | some s => .ok s
  | none => .error .notText

/-- The lines of a file by the usual rule, each of which has to be a text. -/
def fileLines (content : ByteArray) : Except FileFault (List String) :=
  (Text.cutLines 0x0a 0x0d [] content.data.toList).mapM fun bytes => fileText bytes.toByteArray

/-- The report of a file that cannot be read. -/
def FileFault.reading (fault : FileFault) : Report :=
  (Report.ofKind (if fault = .notFound then .fileNotFound else .internalError)).withDetail
    fault.message

/-- The report of a file that cannot be written. -/
def FileFault.writing (fault : FileFault) : Report :=
  (Report.ofKind .internalError).withDetail fault.message

namespace Program

/-- The program in a file. -/
def load (answer : Except FileFault ByteArray) : Except Report Program :=
  match answer.bind fileText with
  | .ok source => .ok (parse source)
  | .error fault => .error fault.reading

/-- The report of a program without lines that is to be saved. -/
def nothingToSave : Report :=
  (Report.ofKind .internalError).withDetail "NOTHING TO SAVE"

end Program

end Sketch
