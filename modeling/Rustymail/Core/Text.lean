import Mathlib.Algebra.Group.Int.Defs
import Mathlib.Algebra.GroupWithZero.Nat
import Mathlib.Data.List.Basic
import Mathlib.Tactic.Common

/-!
# Byte strings

A Rust `str` or `[u8]` is the list of its bytes, so that `len` is the list's length and the byte-wise
order of `BTreeSet<String>` and of SQLite's binary collation is the lexicographic one.
-/

namespace Rustymail

abbrev Text := List UInt8

instance : LawfulBEq Text := inferInstance

/-- The bytes of an ASCII literal. -/
def ascii (literal : String) : Text :=
  literal.toList.map fun c => c.toNat.toUInt8

def cr : UInt8 := 13

def lf : UInt8 := 10

def crlf : Text := [cr, lf]

/-- A number in decimal digits. -/
def decimal (n : Nat) : Text := (Nat.toDigits 10 n).map fun c => c.toNat.toUInt8

def isAsciiDigit (b : UInt8) : Bool := 48 ≤ b && b ≤ 57

def isAsciiUppercase (b : UInt8) : Bool := 65 ≤ b && b ≤ 90

def isAsciiLowercase (b : UInt8) : Bool := 97 ≤ b && b ≤ 122

def isAsciiAlphanumeric (b : UInt8) : Bool :=
  isAsciiDigit b || isAsciiUppercase b || isAsciiLowercase b

def isAsciiControl (b : UInt8) : Bool := b < 32 || b == 127

def isAsciiWhitespace (b : UInt8) : Bool := b == 32 || b == 9 || b == 10 || b == 12 || b == 13

def isAscii (text : Text) : Bool := text.all fun b => b < 128

def lowercaseByte (b : UInt8) : UInt8 :=
  if isAsciiUppercase b then b + 32 else b

/-- `str::to_ascii_lowercase`. -/
def lowercase (text : Text) : Text := text.map lowercaseByte

/-- `str::rsplit_once`: cut at the last occurrence of the separator. -/
def rsplitOnce (separator : UInt8) : Text → Option (Text × Text)
  | [] => none
  | b :: rest =>
      match rsplitOnce separator rest with
      | some (before, after) => some (b :: before, after)
      | none => if b = separator then some ([], rest) else none

/-- `blob::valid_id`: thirty-two lower-case hexadecimal digits. -/
def validId (id : Text) : Bool :=
  id.length == 32 && id.all fun b => isAsciiDigit b || (97 ≤ b && b ≤ 102)

/-- `Uuid::new_v4().simple()`: a generated object identifier. -/
structure Uuid where
  text : Text
  valid : validId text = true
  deriving DecidableEq

theorem Uuid.length (id : Uuid) : id.text.length = 32 := by
  have h := id.valid
  simp only [validId, Bool.and_eq_true, beq_iff_eq] at h
  exact h.1

theorem rsplitOnce_eq_none_iff {separator : UInt8} {text : Text} :
    rsplitOnce separator text = none ↔ separator ∉ text := by
  induction text with
  | nil => simp [rsplitOnce]
  | cons b rest ih =>
      simp only [rsplitOnce, List.mem_cons, not_or]
      cases hrest : rsplitOnce separator rest with
      | some cut =>
          have hmem : separator ∈ rest := by
            by_contra hnot
            simp [ih.2 hnot] at hrest
          simp [hmem]
      | none =>
          have hnot := ih.1 hrest
          by_cases hb : b = separator
          · simp [hb]
          · simp [hb, hnot, Ne.symm hb]

theorem rsplitOnce_append {separator : UInt8} {before after : Text} (h : separator ∉ after) :
    rsplitOnce separator (before ++ separator :: after) = some (before, after) := by
  induction before with
  | nil => simp [rsplitOnce, rsplitOnce_eq_none_iff.2 h]
  | cons b rest ih => simp [rsplitOnce, ih]

/-- A cut puts the text back together, and no separator is left on its right. -/
theorem rsplitOnce_eq_some {separator : UInt8} {text before after : Text}
    (h : rsplitOnce separator text = some (before, after)) :
    text = before ++ separator :: after ∧ separator ∉ after := by
  induction text generalizing before with
  | nil => simp [rsplitOnce] at h
  | cons b rest ih =>
      simp only [rsplitOnce] at h
      cases hrest : rsplitOnce separator rest with
      | some cut =>
          obtain ⟨left, right⟩ := cut
          simp only [hrest, Option.some.injEq, Prod.mk.injEq] at h
          obtain ⟨rfl, rfl⟩ := h
          obtain ⟨heq, hnot⟩ := ih hrest
          exact ⟨by rw [heq]; rfl, hnot⟩
      | none =>
          simp only [hrest] at h
          split_ifs at h with hb
          simp only [Option.some.injEq, Prod.mk.injEq] at h
          obtain ⟨rfl, rfl⟩ := h
          exact ⟨by simp [hb], rsplitOnce_eq_none_iff.1 hrest⟩

theorem lowercaseByte_idem (b : UInt8) : lowercaseByte (lowercaseByte b) = lowercaseByte b := by
  unfold lowercaseByte isAsciiUppercase
  grind

theorem lowercase_idem (text : Text) : lowercase (lowercase text) = lowercase text := by
  simp [lowercase, lowercaseByte_idem]

@[simp]
theorem lowercase_length (text : Text) : (lowercase text).length = text.length := by
  simp [lowercase]

theorem lowercaseByte_eq_iff {b c : UInt8} (hc : isAsciiAlphanumeric c = false) :
    lowercaseByte b = c ↔ b = c := by
  simp only [isAsciiAlphanumeric, isAsciiDigit, isAsciiLowercase, isAsciiUppercase,
    Bool.or_eq_false_iff, Bool.and_eq_false_iff, decide_eq_false_iff_not] at hc
  unfold lowercaseByte isAsciiUppercase
  grind

theorem isAsciiAlphanumeric_lowercaseByte (b : UInt8) :
    isAsciiAlphanumeric (lowercaseByte b) = isAsciiAlphanumeric b := by
  unfold isAsciiAlphanumeric lowercaseByte isAsciiDigit isAsciiUppercase isAsciiLowercase
  grind

end Rustymail
