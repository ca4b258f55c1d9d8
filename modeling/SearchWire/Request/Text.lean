import SearchWire.Failure
import SearchWire.Json.Writer
import SearchWire.Request.Basic

/-!
# Requests as JSON

The body of a request as JSON text; a bulk request has one line for each operation, and every
line ends with a line feed.

* `Request.jsonText`: the text in a style, or the fault of the first value that has none.
* `Request.json`, `Request.spacedJson`: the text in the compact and in the spaced style.
-/

namespace SearchWire.Request

/-- The texts of some values, each with a line feed at its end. -/
def linesText (style : Json.Style) : List Value → Except Json.WriteFault (List Char)
  | [] => .ok []
  | v :: vs => do
    let line ← Json.write style v
    .ok (line ++ '\n' :: (← linesText style vs))

/-- The body as JSON text. A request without lines is a line feed alone. -/
def jsonText (style : Json.Style) (r : Request) : Except Json.WriteFault (List Char) :=
  match r.kind with
  | .bulk => if r.lines.isEmpty then .ok ['\n'] else linesText style r.lines
  | _ => Json.write style r.body

/-- The body as compact JSON. -/
def json (r : Request) : Except Failure String :=
  match r.jsonText .compact with
  | .ok text => .ok (String.ofList text)
  | .error _ => .error .notWritten

/-- The body as JSON with sorted entries, blanks between its parts and ASCII characters only. -/
def spacedJson (r : Request) : Except Failure String :=
  match r.jsonText .spaced with
  | .ok text => .ok (String.ofList text)
  | .error fault => .error (.refused fault.message)

end SearchWire.Request
