import Scad.Json.Writer

/-!
# Scad.Rpc.Frame

Messages on the wire. Lines of the header come first, each ended by a carriage return and a newline,
then an empty line, then as many bytes of text as the header says.

* `Frame.length?`: the number of bytes that the lines of a header announce.
* `Frame.render`: a message with its header.
-/

namespace Scad
namespace Rpc
namespace Frame

/-- The name of the header line that counts. -/
def lengthField : String := "Content-Length"

/-- A line without blanks around it. -/
def trim (line : String) : List Char :=
  let isBlank (c : Char) := c == ' ' || c == '\t' || c == '\r' || c == '\n'
  ((line.toList.dropWhile isBlank).reverse.dropWhile isBlank).reverse

/-- Whether a line ends the header. -/
def isEmptyLine (line : String) : Bool := (trim line).isEmpty

/-- The number of bytes that one line of the header announces. -/
def lineLength? (line : String) : Option Nat :=
  let text := trim line
  let value := trim (String.ofList (text.dropWhile (· != ':')).tail)
  if (text.takeWhile (· != ':')).map Char.toLower = lengthField.toList.map Char.toLower then
    if value.isEmpty || !value.all Char.isDigit then none
    else some (value.foldl (fun n d => 10 * n + (d.toNat - '0'.toNat)) 0)
  else none

/-- The number of bytes that the lines of a header announce. -/
def length? (lines : List String) : Option Nat := lines.findSome? lineLength?

/-- A message with its header. -/
def render (message : Json) : String :=
  let text := message.render
  lengthField ++ ": " ++ toString text.utf8ByteSize ++ "\r\n\r\n" ++ text

/-- The response to a text that is no message. -/
def parseError : Json :=
  .obj [("jsonrpc", .str "2.0"),
    ("error", .obj [("code", .int (-32700)), ("message", .str "Parse error")]), ("id", .null)]

/-- Whether a message is the client's response to a request of the server. -/
def isResponse (message : Json) : Bool := (message.get? "method").isNone

end Frame
end Rpc
end Scad
