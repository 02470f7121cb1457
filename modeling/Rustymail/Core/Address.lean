import Rustymail.Core.Text

/-!
# Mailbox addresses

`Address::parse` keeps the local part and lower-cases the domain. The private field of the Rust type
is here a pair of proofs: an `Address` is a text that `parse` accepts and leaves as it is.
-/

namespace Rustymail

def validLabel (label : Text) : Bool :=
  !label.isEmpty && decide (label.length ≤ 63)
    && label.head?.any isAsciiAlphanumeric && label.getLast?.any isAsciiAlphanumeric
    && label.all fun c => isAsciiAlphanumeric c || c == 45

/-- `valid_domain`: one to 253 bytes of dot-separated labels. -/
def validDomain (domain : Text) : Bool :=
  decide (domain.length ≤ 253) && !domain.isEmpty && (domain.splitOn 46).all validLabel

/-- `local.contains("..")`. -/
def hasDoubleDot : Text → Bool
  | a :: b :: rest => (a == 46 && b == 46) || hasDoubleDot (b :: rest)
  | _ => false

def localByte (c : UInt8) : Bool :=
  isAsciiAlphanumeric c || (ascii "!#$%&'*+-/=?^_`\x7b|\x7d~.").contains c

def validLocalPart (localPart : Text) : Bool :=
  !localPart.isEmpty && decide (localPart.length ≤ 64)
    && localPart.head? != some 46 && localPart.getLast? != some 46
    && !hasDoubleDot localPart && localPart.all localByte

/-- The checks of `Address::parse` before it builds its result. -/
def Address.accepts (input : Text) : Bool :=
  match rsplitOnce 64 input with
  | none => false
  | some (localPart, domain) =>
      decide (input.length ≤ 254) && validLocalPart localPart && validDomain domain

/-- The text `Address::parse` builds from an accepted input. -/
def Address.normalize (input : Text) : Text :=
  match rsplitOnce 64 input with
  | none => input
  | some (localPart, domain) => localPart ++ 64 :: lowercase domain

structure Address where
  text : Text
  accepted : Address.accepts text = true
  normal : Address.normalize text = text
  deriving DecidableEq

theorem splitOn_lowercase {separator : UInt8} (h : isAsciiAlphanumeric separator = false)
    (text : Text) :
    (lowercase text).splitOn separator = (text.splitOn separator).map lowercase := by
  induction text with
  | nil => rfl
  | cons b rest ih =>
      have hb : (lowercaseByte b == separator) = (b == separator) := by
        rw [Bool.eq_iff_iff, beq_iff_eq, beq_iff_eq, lowercaseByte_eq_iff h]
      simp only [lowercase, List.map_cons, List.splitOn_cons_eq_if_modifyHead] at ih ⊢
      rw [hb, ih]
      split_ifs
      · simp [lowercase]
      · cases hsplit : rest.splitOn separator with
        | nil => simp
        | cons first others => simp [lowercase]

theorem validLabel_lowercase (label : Text) : validLabel (lowercase label) = validLabel label := by
  have hbyte : ∀ c, (isAsciiAlphanumeric (lowercaseByte c) || lowercaseByte c == 45) =
      (isAsciiAlphanumeric c || c == 45) := by
    intro c
    have h : (lowercaseByte c == 45) = (c == 45) := by
      rw [Bool.eq_iff_iff, beq_iff_eq, beq_iff_eq, lowercaseByte_eq_iff (by decide)]
    rw [isAsciiAlphanumeric_lowercaseByte, h]
  simp only [validLabel, lowercase, List.isEmpty_map, List.length_map, List.head?_map,
    List.getLast?_map, Option.any_map, List.all_map]
  congr 1
  · congr 1
    · congr 2
      funext c
      exact isAsciiAlphanumeric_lowercaseByte c
    · congr 1
      funext c
      exact isAsciiAlphanumeric_lowercaseByte c
  · congr 1
    funext c
    exact hbyte c

theorem validDomain_lowercase (domain : Text) :
    validDomain (lowercase domain) = validDomain domain := by
  simp only [validDomain, lowercase_length]
  rw [splitOn_lowercase (by decide), List.all_map]
  congr 1
  · simp [lowercase]
  · congr 1
    funext label
    exact validLabel_lowercase label

/-- The at sign that `parse` cut at is the only one on the domain's side. -/
theorem notMem_lowercase_of_notMem {domain : Text} (h : 64 ∉ domain) : 64 ∉ lowercase domain := by
  intro hmem
  obtain ⟨b, hb, heq⟩ := List.mem_map.1 hmem
  rw [lowercaseByte_eq_iff (by decide)] at heq
  exact h (heq ▸ hb)

namespace Address

theorem rsplitOnce_normalize {input localPart domain : Text}
    (h : rsplitOnce 64 input = some (localPart, domain)) :
    rsplitOnce 64 (normalize input) = some (localPart, lowercase domain) := by
  have hnot := (rsplitOnce_eq_some h).2
  simp only [normalize, h]
  exact rsplitOnce_append (notMem_lowercase_of_notMem hnot)

theorem normalize_length (input : Text) : (normalize input).length = input.length := by
  cases h : rsplitOnce 64 input with
  | none => simp [normalize, h]
  | some cut =>
      obtain ⟨localPart, domain⟩ := cut
      have hcut := congrArg List.length (rsplitOnce_eq_some h).1
      simp only [List.length_append, List.length_cons] at hcut
      simp [normalize, h, hcut]

theorem accepts_normalize {input : Text} (h : accepts input = true) :
    accepts (normalize input) = true := by
  cases hcut : rsplitOnce 64 input with
  | none => simp [accepts, hcut] at h
  | some cut =>
      obtain ⟨localPart, domain⟩ := cut
      simp only [accepts, hcut] at h
      simpa only [accepts, rsplitOnce_normalize hcut, normalize_length, validDomain_lowercase]
        using h

theorem normalize_idem (input : Text) : normalize (normalize input) = normalize input := by
  cases hcut : rsplitOnce 64 input with
  | none => simp [normalize, hcut]
  | some cut =>
      obtain ⟨localPart, domain⟩ := cut
      have hnormal := rsplitOnce_normalize hcut
      have hinput : normalize input = localPart ++ 64 :: lowercase domain := by
        simp [normalize, hcut]
      rw [normalize, hnormal, hinput]
      simp [lowercase_idem]

def parse (input : Text) : Option Address :=
  if h : accepts input = true then
    some ⟨normalize input, accepts_normalize h, normalize_idem input⟩
  else
    none

def asStr (address : Address) : Text := address.text

def domain (address : Address) : Text :=
  match rsplitOnce 64 address.text with
  | some (_, domain) => domain
  | none => []

/-- Only for the server's own case-insensitive namespace. -/
def localKey (address : Address) : Text := lowercase address.text

/-- **Stored addresses re-parse to themselves.** -/
theorem parse_asStr (address : Address) : parse address.asStr = some address := by
  obtain ⟨text, haccepted, hnormal⟩ := address
  simp only [parse, asStr, haccepted, ↓reduceDIte, Option.some.injEq, mk.injEq]
  exact hnormal

theorem text_ne_nil (address : Address) : address.text ≠ [] := by
  intro h
  have haccepted := address.accepted
  simp [h, accepts, rsplitOnce] at haccepted

/-- Cutting a stored address at its last at sign, as `insert_relay` and `deliver` do, succeeds. -/
theorem rsplitOnce_text (address : Address) :
    ∃ localPart, rsplitOnce 64 address.text = some (localPart, address.domain) := by
  have haccepted := address.accepted
  cases hcut : rsplitOnce 64 address.text with
  | none => simp [accepts, hcut] at haccepted
  | some cut => exact ⟨cut.1, by simp [domain, hcut]⟩

end Address

end Rustymail
