import Rustymail.Protocol.Session

/-!
# Commands

`parse_command`: the lines of the supported part of SMTP, and what is wrong with the others.
-/

namespace Rustymail.Server

inductive ParseError where
  | syntactic
  | unsupportedParameter
  deriving DecidableEq

/-- The part before the first separator, and the part behind it. -/
def splitOnce (separator : UInt8) (text : Text) : Option (Text × Text) :=
  if separator ∈ text then
    some (text.takeWhile (· != separator), (text.dropWhile (· != separator)).tail)
  else none

/-- The first word of a line, up to the first space. -/
def verbOf (line : Text) : Text := line.takeWhile (· != 32)

/-- What follows the first space. -/
def restOf (line : Text) : Text := (line.dropWhile (· != 32)).tail

/-- `trim_matches(' ')`. -/
def trimSpaces (text : Text) : Text :=
  ((text.dropWhile (· == 32)).reverse.dropWhile (· == 32)).reverse

/-- `split_ascii_whitespace`. -/
def splitAsciiWhitespace (text : Text) : List Text :=
  (text.splitOnP isAsciiWhitespace).filter fun word => !word.isEmpty

/-- `parse_path`: what is between the brackets, and what follows them. -/
def parsePath (args keyword : Text) : Except ParseError (Text × Text) :=
  if eqIgnoreAsciiCase (args.take keyword.length) keyword = false then .error .syntactic
  else
    match args.drop keyword.length with
    | 60 :: rest =>
        match splitOnce 62 rest with
        | none => .error .syntactic
        | some (path, suffix) =>
            if suffix ≠ [] ∧ suffix.head? ≠ some 32 then .error .syntactic
            else .ok (path, trimSpaces suffix)
    | _ => .error .syntactic

/-- The value of a text of decimal digits, at most `u64::MAX`. -/
def boundedNumber (digits : Text) : Nat :=
  min (digits.foldl (fun n b => 10 * n + (b.toNat - 48)) 0) (2 ^ 64 - 1)

structure MailParameters where
  size : Option Nat := none
  body : Option Body := none
  deriving DecidableEq

/-- One parameter of MAIL. -/
def MailParameters.add (parameters : MailParameters) (param : Text) :
    Except ParseError MailParameters :=
  match splitOnce 61 param with
  | none => .error .unsupportedParameter
  | some (key, value) =>
      if eqIgnoreAsciiCase key (ascii "SIZE") then
        if parameters.size.isSome ∨ value = [] ∨ 20 < value.length
            ∨ value.all isAsciiDigit = false then .error .syntactic
        else .ok { parameters with size := some (boundedNumber value) }
      else if eqIgnoreAsciiCase key (ascii "BODY") then
        if parameters.body.isSome then .error .syntactic
        else if eqIgnoreAsciiCase value (ascii "7BIT") then
          .ok { parameters with body := some .sevenBit }
        else if eqIgnoreAsciiCase value (ascii "8BITMIME") then
          .ok { parameters with body := some .eightBitMime }
        else .error .unsupportedParameter
      else .error .unsupportedParameter

/-- The sender of MAIL. An empty path is the null sender. -/
def parseReversePath (path : Text) : Except ParseError (Option Address) :=
  if path = [] then .ok none
  else
    match Address.parse path with
    | none => .error .syntactic
    | some address => .ok (some address)

/-- The MAIL arm. -/
def parseMail (args : Text) : Except ParseError Command := do
  let (path, parameters) ← parsePath args (ascii "FROM:")
  let sender ← parseReversePath path
  let parameters ← (splitAsciiWhitespace parameters).foldlM MailParameters.add {}
  pure (.mail sender parameters.size parameters.body)

/-- The RCPT arm. -/
def parseRcpt (args : Text) : Except ParseError Command := do
  let (path, parameters) ← parsePath args (ascii "TO:")
  if parameters ≠ [] then .error .unsupportedParameter
  else
    match Address.parse path with
    | none => .error .syntactic
    | some address => pure (.rcpt address)

/-- A command that takes no argument. -/
def bare (args : Text) (command : Command) : Except ParseError Command :=
  if args = [] then .ok command else .error .syntactic

/-- A greeting names one host. -/
def parseHello (args : Text) (command : Text → Command) : Except ParseError Command :=
  if args = [] ∨ 32 ∈ args then .error .syntactic else .ok (command args)

def parseCommand (line : Text) : Except ParseError Command :=
  if isAscii line = false ∨ line.any isAsciiControl = true then .error .syntactic
  else
    let isVerb := fun name => eqIgnoreAsciiCase (verbOf line) (ascii name)
    let args := trimSpaces (restOf line)
    if isVerb "EHLO" then parseHello args .ehlo
    else if isVerb "HELO" then parseHello args .helo
    else if isVerb "MAIL" then parseMail args
    else if isVerb "RCPT" then parseRcpt args
    else if isVerb "DATA" then bare args .data
    else if isVerb "RSET" then bare args .reset
    else if isVerb "NOOP" then .ok .noop
    else if isVerb "HELP" then .ok .help
    else if isVerb "VRFY" then (if args = [] then .error .syntactic else .ok .verify)
    else if isVerb "QUIT" then bare args .quit
    else if isVerb "STARTTLS" then bare args .startTls
    else .ok .unsupported

end Rustymail.Server
