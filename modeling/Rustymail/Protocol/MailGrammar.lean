import Rustymail.Lib.Words
import Rustymail.Protocol.Command

/-!
# The grammar of MAIL

Which lines are a MAIL command and what they say, written down as a grammar and apart from the
parser: `"MAIL" 1*SP "FROM:" "<" path ">" *( 1*SP parameter ) *SP`, where a path is empty or an
address, and SIZE and BODY may be there once each, in any order. Words are in any case.
-/

namespace Rustymail.Server

/-- US-ASCII without control characters. -/
def Printable (line : Text) : Prop := ∀ b ∈ line, 32 ≤ b ∧ b ≤ 126

/-- The number that a text of decimal digits stands for. -/
def decimalNumber (digits : Text) : Nat := digits.foldl (fun n b => 10 * n + (b.toNat - 48)) 0

/-- `SIZE=` and one to twenty digits. -/
def SizeParameter (word digits : Text) : Prop :=
  ∃ key, lowercase key = lowercase (ascii "SIZE") ∧ word = key ++ 61 :: digits
    ∧ 1 ≤ digits.length ∧ digits.length ≤ 20 ∧ ∀ b ∈ digits, 48 ≤ b ∧ b ≤ 57

def bodyName : Body → Text
  | .sevenBit => ascii "7BIT"
  | .eightBitMime => ascii "8BITMIME"

/-- `BODY=` and the name of a transfer encoding. -/
def BodyParameter (word : Text) (body : Body) : Prop :=
  ∃ key value, lowercase key = lowercase (ascii "BODY") ∧ word = key ++ 61 :: value
    ∧ lowercase value = lowercase (bodyName body)

/-- No word, or one that is this parameter. -/
def AtMostOne {α : Type} (parameter : Text → α → Prop) (words : List Text) : Option α → Prop
  | none => words = []
  | some value => ∃ word, words = [word] ∧ parameter word value

/-- At most one SIZE and at most one BODY, in any order. -/
def Parameters (words : List Text) (digits : Option Text) (body : Option Body) : Prop :=
  ∃ sizes bodies : List Text, words.Perm (sizes ++ bodies)
    ∧ AtMostOne SizeParameter sizes digits ∧ AtMostOne BodyParameter bodies body

/-- What is between the brackets: nothing for the null sender, or an address. -/
def ReversePath (path : Text) : Option Address → Prop
  | none => path = []
  | some address => path ≠ [] ∧ Address.parse path = some address

/-- A MAIL line with this sender, the digits of its SIZE and its BODY. -/
def MailLine (line : Text) (sender : Option Address) (digits : Option Text) (body : Option Body) :
    Prop :=
  ∃ verb gap keyword path tail words,
    line = verb ++ gap ++ keyword ++ 60 :: path ++ 62 :: tail
      ∧ lowercase verb = lowercase (ascii "MAIL")
      ∧ gap ≠ [] ∧ (∀ b ∈ gap, b = 32)
      ∧ lowercase keyword = lowercase (ascii "FROM:")
      ∧ 62 ∉ path ∧ ReversePath path sender
      ∧ Words.Separated (· == 32) tail words ∧ Parameters words digits body

end Rustymail.Server
