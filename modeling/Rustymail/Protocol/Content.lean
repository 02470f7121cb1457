import Rustymail.Protocol.Fields

/-!
# What a stream of DATA says

The lines between DATA and its terminator: a header, up to the first empty line, and a body. Lines are
without their CRLF here.
-/

namespace Rustymail

/-- A line without the dot that makes it transparent. -/
def unstuffed (frame : Text) : Text := if frame.head? = some 46 then frame.tail else frame

/-- The bytes of some lines, with their CRLF. -/
def octets (lines : List Text) : Nat := (lines.map fun line => line.length + 2).sum

def headerLines (lines : List Text) : List Text := lines.takeWhile fun line => !line.isEmpty

def bodyLines (lines : List Text) : List Text := (lines.dropWhile fun line => !line.isEmpty).tail

/-- The lines of the header section: the header, and the empty line if there is one. -/
def sectionLines (lines : List Text) : List Text :=
  headerLines lines ++ (lines.dropWhile fun line => !line.isEmpty).take 1

/-- The header without the fields that are dropped. -/
def retainedLines (submission : Bool) (lines : List Text) : List Text :=
  ((fields (headerLines lines)).filter fun field =>
    field.head?.any (HeaderFilter.keeps submission)).flatten

/-- What is stored of a message, behind the trace. -/
def storedText (submission : Bool) (lines : List Text) : Text :=
  (retainedLines submission lines).flatMap (· ++ crlf) ++ crlf
    ++ (bodyLines lines).flatMap (· ++ crlf)

end Rustymail
