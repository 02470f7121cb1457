import Rustymail.Lib.Groups
import Rustymail.Lib.Words
import Rustymail.Protocol.Headers

/-!
# Header fields as such

What a header is, apart from the filter that goes through it line by line: lines fall into fields, and
a field is kept or dropped as a whole. Lines are without their CRLF here.
-/

namespace Rustymail

/-- A line that goes on with the field before it. -/
def continuation (line : Text) : Bool := line.head? == some 32 || line.head? == some 9

/-- The fields of a header, each with its first line and its continuations. -/
abbrev fields (lines : List Text) : List (List Text) := Groups.groups continuation lines

def fieldName (line : Text) : Text := line.takeWhile (· != 58)

def fieldValue (line : Text) : Text := (line.dropWhile (· != 58)).tail

/-- Is this the name on the line, in whatever case? -/
def named (name : String) (line : Text) : Bool :=
  Server.eqIgnoreAsciiCase (fieldName line) (ascii name)

/-- A name of printable bytes, a colon, and the rest. -/
def BeginsField (line : Text) : Prop :=
  ∃ name rest, line = name ++ 58 :: rest ∧ name ≠ [] ∧ 58 ∉ name ∧ ∀ b ∈ name, 33 ≤ b ∧ b ≤ 126

structure WellFormedHeader (lines : List Text) : Prop where
  printable : ∀ line ∈ lines, ∀ b ∈ line, (32 ≤ b ∧ b ≤ 126) ∨ b = 9
  starts : ∀ line ∈ lines.head?, continuation line = false
  begins : ∀ line ∈ lines, continuation line = false → BeginsField line

/-! ### The author -/

/-- The value of a field without the blanks around it. -/
def trimmedValue (line : Text) : Text := Words.trim (fun b => b == 32 || b == 9) (fieldValue line)

/-- An address, or a display text with an address in angle brackets at its end. -/
def AuthorValue (value : Text) (author : Address) : Prop :=
  Address.parse value = some author
    ∨ ∃ display text, value = display ++ 60 :: (text ++ [62])
      ∧ (∀ b ∈ display, b ∉ ascii "<>,;:()") ∧ Address.parse text = some author

/-- A field that names a sender in another way. -/
def namesSender (line : Text) : Bool :=
  named "Sender" line || Server.eqIgnoreAsciiCase ((fieldName line).take 7) (ascii "Resent-")

/-- There is one From field, of one line with this author, and no field names another sender. -/
structure NamesAuthor (lines : List Text) (author : Address) : Prop where
  one : ∃ line, (fields lines).filter (fun field => field.head?.any (named "From")) = [[line]]
    ∧ AuthorValue (trimmedValue line) author
  alone : ∀ field ∈ fields lines, field.head?.any namesSender = false

/-- The field names consist of letters, digits and hyphens. -/
def PlainNames (lines : List Text) : Prop :=
  ∀ field ∈ fields lines, ∀ line ∈ field.head?, ∀ b ∈ fieldName line,
    isAsciiAlphanumeric b = true ∨ b = 45

/-! ### The filter -/

namespace HeaderFilter

/-- The filter of either mode before its first line. -/
def initial (submission : Bool) : HeaderFilter := { removeBcc := submission }

/-- Is the field that begins with this line kept? -/
def keeps (removeBcc : Bool) (line : Text) : Bool :=
  !(named "Return-Path" line || (removeBcc && (named "Bcc" line || named "Resent-Bcc" line)))

/-- All lines of a header through `retain`, and those it keeps. -/
def retainAll (filter : HeaderFilter) : List Text → Option (HeaderFilter × List Text)
  | [] => some (filter, [])
  | line :: rest => do
      let (filter, kept) ← filter.retain line
      let (filter, lines) ← filter.retainAll rest
      pure (filter, if kept then line :: lines else lines)

end HeaderFilter

end Rustymail
