import Rustymail.Protocol.Lines
import Rustymail.Protocol.Session

/-!
# Header fields

`HeaderFilter`, which checks the structure of a header and tells which of its lines are kept, and
`decode_data_frame`, which takes the transparency of DATA back.
-/

namespace Rustymail

/-- `<[u8]>::strip_suffix(b"\r\n")`. -/
def stripCrlf (line : Text) : Option Text :=
  if crlf.isSuffixOf line then some (line.take (line.length - 2)) else none

/-- The part before the first colon, and the part behind it. -/
def splitColon : Text → Option (Text × Text)
  | [] => none
  | b :: rest =>
      if b = 58 then some ([], rest)
      else (splitColon rest).map fun cut => (b :: cut.1, cut.2)

structure HeaderFilter where
  fieldSeen : Bool := false
  removing : Bool := false
  removeBcc : Bool := false
  deriving DecidableEq

namespace HeaderFilter

def submission : HeaderFilter := { removeBcc := true }

/-- `retain`: the filter after the line, and whether the line is kept. -/
def retain (filter : HeaderFilter) (line : Text) : Option (HeaderFilter × Bool) :=
  match stripCrlf line with
  | none => none
  | some content =>
      if isAscii content = false ∨ (content.any fun b => isAsciiControl b && b != 9) = true then none
      else if content.head? = some 32 ∨ content.head? = some 9 then
        if filter.fieldSeen then some (filter, !filter.removing) else none
      else
        match splitColon content with
        | none => none
        | some (name, _) =>
            if name = [] ∨ (name.all fun b => 33 ≤ b && b ≤ 126) = false then none
            else
              let removing := Server.eqIgnoreAsciiCase name (ascii "Return-Path")
                || (filter.removeBcc && (Server.eqIgnoreAsciiCase name (ascii "Bcc")
                  || Server.eqIgnoreAsciiCase name (ascii "Resent-Bcc")))
              some ({ filter with fieldSeen := true, removing := removing }, !removing)

end HeaderFilter

/-- `decode_data_frame`: nothing at the end of the data. -/
def decodeDataFrame (frame : Text) : Except FrameError (Option Text) :=
  if crlf.isSuffixOf frame = false then .error .invalidLineEnding
  else if frame = 46 :: crlf then .ok none
  else
    let data := if frame.head? = some 46 then frame.tail else frame
    if 1000 < data.length then .error .tooLong else .ok (some data)

end Rustymail
