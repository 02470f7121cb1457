import Mathlib.Algebra.Order.BigOperators.Group.List
import Mathlib.Algebra.Order.Group.Nat
import Mathlib.Algebra.Group.Action.Defs
import Mathlib.Algebra.GroupWithZero.Nat
import Mathlib.Tactic.Common

/-!
# Compact JSON

A `Serializer` is what a user of one may rely on: how the values are written that it builds, which
bytes of a string are escaped, and that a text is a single line. The lengths below follow from that.
-/

namespace Json

/-- An integer in decimal digits. -/
def integer (n : Int) : List UInt8 :=
  (if n < 0 then [45] else []) ++ (Nat.toDigits 10 n.natAbs).map fun c => c.toNat.toUInt8

/-- A text in quotation marks. -/
def quoted (escape : UInt8 → List UInt8) (text : List UInt8) : List UInt8 :=
  34 :: text.flatMap escape ++ [34]

/-- A value is handed to the writer in pieces. Quotation marks and backslashes are escaped, control
bytes are written in some way, and every other byte of a string is written as it is. The fields of an
object are built in the order of their names. -/
structure Serializer where
  Value : Type
  null : Value
  bool : Bool → Value
  number : Int → Value
  string : List UInt8 → Value
  array : List Value → Value
  object : List (List UInt8 × Value) → Value
  escape : UInt8 → List UInt8
  pieces : Value → List (List UInt8)
  pieces_null : (pieces null).flatten = [110, 117, 108, 108]
  pieces_bool : ∀ b, (pieces (bool b)).flatten
    = if b then [116, 114, 117, 101] else [102, 97, 108, 115, 101]
  pieces_number : ∀ n, -2 ^ 63 ≤ n → n < 2 ^ 63 → (pieces (number n)).flatten = integer n
  pieces_string : ∀ text, (pieces (string text)).flatten = quoted escape text
  pieces_array : ∀ items, (pieces (array items)).flatten
    = 91 :: [44].intercalate (items.map fun item => (pieces item).flatten) ++ [93]
  pieces_object : ∀ fields, (fields.map Prod.fst).Pairwise (· < ·) →
    (pieces (object fields)).flatten
      = 123 :: [44].intercalate
          (fields.map fun field => quoted escape field.1 ++ 58 :: (pieces field.2).flatten) ++ [125]
  escape_mark : ∀ b, b = 34 ∨ b = 92 → escape b = [92, b]
  escape_plain : ∀ b, b ≠ 34 → b ≠ 92 → 32 ≤ b → escape b = [b]
  one_line : ∀ value, 10 ∉ (pieces value).flatten

/-! ### Lengths -/

theorem length_integer {n : Int} (hlow : -2 ^ 63 ≤ n) (hhigh : n < 2 ^ 63) :
    (integer n).length ≤ 20 := by
  have hdigits : (Nat.toDigits 10 n.natAbs).length ≤ 19 := by
    rw [Nat.length_toDigits_le_iff (by omega) (by omega)]
    omega
  have hsign : (if n < 0 then [45] else [] : List UInt8).length ≤ 1 := by
    split
    · exact Nat.le_refl 1
    · exact Nat.zero_le 1
  unfold integer
  rw [List.length_append, List.length_map]
  omega

/-- Texts that are joined by commas, with a comma for each. -/
theorem length_commas (parts : List (List UInt8)) :
    ([44].intercalate parts).length ≤ (parts.map fun part => part.length + 1).sum := by
  induction parts with
  | nil => exact Nat.zero_le _
  | cons part rest ih =>
      rw [List.map_cons, List.sum_cons]
      cases rest with
      | nil =>
          rw [List.intercalate_singleton]
          omega
      | cons next rest =>
          rw [List.intercalate_cons_cons, List.length_append, List.length_append,
            List.length_singleton]
          omega

namespace Serializer

variable (json : Serializer)

/-- The whole text of a value. -/
def text (value : json.Value) : List UInt8 := (json.pieces value).flatten

theorem length_null : (json.text json.null).length = 4 := by
  unfold text
  rw [json.pieces_null]
  rfl

theorem length_bool (b : Bool) : (json.text (json.bool b)).length ≤ 5 := by
  unfold text
  rw [json.pieces_bool]
  cases b with
  | false => exact Nat.le_refl 5
  | true => exact Nat.le_succ 4

theorem length_number {n : Int} (hlow : -2 ^ 63 ≤ n) (hhigh : n < 2 ^ 63) :
    (json.text (json.number n)).length ≤ 20 := by
  unfold text
  rw [json.pieces_number n hlow hhigh]
  exact length_integer hlow hhigh

/-- At most every byte is escaped. -/
theorem length_quoted {text : List UInt8} (h : ∀ b ∈ text, 32 ≤ b) :
    (quoted json.escape text).length ≤ 2 * text.length + 2 := by
  have hbytes : (text.flatMap json.escape).length ≤ 2 * text.length := by
    induction text with
    | nil => exact Nat.le_refl 0
    | cons b rest ih =>
        have hrest := ih fun c hc => h c (List.mem_cons_of_mem b hc)
        have hbyte : (json.escape b).length ≤ 2 := by
          by_cases hmark : b = 34 ∨ b = 92
          · rw [json.escape_mark b hmark]
            exact Nat.le_refl 2
          · rw [not_or] at hmark
            rw [json.escape_plain b hmark.1 hmark.2 (h b List.mem_cons_self)]
            exact Nat.le_succ 1
        rw [List.flatMap_cons, List.length_append, List.length_cons]
        omega
  unfold quoted
  rw [List.length_append, List.length_cons, List.length_singleton]
  omega

/-- Nothing is escaped in a text without marks. -/
theorem length_quoted_plain {text : List UInt8}
    (h : ∀ b ∈ text, b ≠ 34 ∧ b ≠ 92 ∧ 32 ≤ b) :
    (quoted json.escape text).length = text.length + 2 := by
  have hbytes : text.flatMap json.escape = text := by
    induction text with
    | nil => rfl
    | cons b rest ih =>
        obtain ⟨hquote, hslash, hlow⟩ := h b List.mem_cons_self
        rw [List.flatMap_cons, json.escape_plain b hquote hslash hlow,
          ih fun c hc => h c (List.mem_cons_of_mem b hc), List.singleton_append]
  unfold quoted
  rw [hbytes, List.length_append, List.length_cons, List.length_singleton]

theorem length_string {text : List UInt8} (h : ∀ b ∈ text, 32 ≤ b) :
    (json.text (json.string text)).length ≤ 2 * text.length + 2 := by
  unfold Serializer.text
  rw [json.pieces_string]
  exact json.length_quoted h

theorem length_string_plain {text : List UInt8} (h : ∀ b ∈ text, b ≠ 34 ∧ b ≠ 92 ∧ 32 ≤ b) :
    (json.text (json.string text)).length = text.length + 2 := by
  unfold Serializer.text
  rw [json.pieces_string]
  exact json.length_quoted_plain h

theorem length_array {items : List json.Value} {bound : Nat}
    (h : ∀ item ∈ items, (json.text item).length ≤ bound) :
    (json.text (json.array items)).length ≤ items.length * (bound + 1) + 2 := by
  have htext : json.text (json.array items)
      = 91 :: [44].intercalate (items.map json.text) ++ [93] := json.pieces_array items
  have hsum := List.sum_le_card_nsmul (items.map fun item => (json.text item).length + 1) (bound + 1)
    fun n hn => by
      obtain ⟨item, hitem, rfl⟩ := List.mem_map.1 hn
      exact Nat.add_le_add_right (h item hitem) 1
  have hcommas := length_commas (items.map json.text)
  rw [List.map_map] at hcommas
  rw [List.length_map, smul_eq_mul] at hsum
  rw [htext, List.length_append, List.length_cons, List.length_singleton]
  exact Nat.add_le_add_right (Nat.add_le_add_right (hcommas.trans hsum) 1) 1

/-- A field as it is written. -/
def field (entry : List UInt8 × json.Value) : List UInt8 :=
  quoted json.escape entry.1 ++ 58 :: json.text entry.2

theorem length_field {name : List UInt8} {value : json.Value}
    (hname : ∀ b ∈ name, b ≠ 34 ∧ b ≠ 92 ∧ 32 ≤ b) :
    (json.field (name, value)).length = name.length + 3 + (json.text value).length := by
  change (quoted json.escape name ++ 58 :: json.text value).length = _
  rw [List.length_append, json.length_quoted_plain hname, List.length_cons]
  omega

theorem length_object {fields : List (List UInt8 × json.Value)}
    (h : (fields.map Prod.fst).Pairwise (· < ·)) :
    (json.text (json.object fields)).length
      ≤ (fields.map fun field => (json.field field).length + 1).sum + 2 := by
  have htext : json.text (json.object fields)
      = 123 :: [44].intercalate (fields.map json.field) ++ [125] := json.pieces_object fields h
  have hcommas := length_commas (fields.map json.field)
  rw [List.map_map] at hcommas
  rw [htext, List.length_append, List.length_cons, List.length_singleton]
  exact Nat.add_le_add_right (Nat.add_le_add_right hcommas 1) 1

end Serializer

/-! ### A serializer -/

def hexDigit (n : Nat) : UInt8 := if n < 10 then (48 + n).toUInt8 else (87 + n).toUInt8

/-- The short forms where there is one, and the number of the byte otherwise. -/
def escape (b : UInt8) : List UInt8 :=
  if b = 34 ∨ b = 92 then [92, b]
  else if b = 8 then [92, 98]
  else if b = 9 then [92, 116]
  else if b = 10 then [92, 110]
  else if b = 12 then [92, 102]
  else if b = 13 then [92, 114]
  else if b < 32 then [92, 117, 48, 48, hexDigit (b.toNat / 16), hexDigit (b.toNat % 16)]
  else [b]

theorem notMem_escape (b : UInt8) : 10 ∉ escape b := by
  have hall : ∀ n < 256, 10 ∉ escape (UInt8.ofNat n) := by decide +kernel
  have hb := hall b.toNat b.toNat_lt
  rwa [UInt8.ofNat_toNat] at hb

theorem escape_plain (b : UInt8) (hquote : b ≠ 34) (hslash : b ≠ 92) (hlow : 32 ≤ b) :
    escape b = [b] := by
  have hall : ∀ n < 256, UInt8.ofNat n ≠ 34 → UInt8.ofNat n ≠ 92 → 32 ≤ UInt8.ofNat n →
      escape (UInt8.ofNat n) = [UInt8.ofNat n] := by decide +kernel
  have hb := hall b.toNat b.toNat_lt
  rw [UInt8.ofNat_toNat] at hb
  exact hb hquote hslash hlow

theorem notMem_quoted (text : List UInt8) : 10 ∉ quoted escape text := by
  intro hmem
  rcases List.mem_append.1 hmem with hfront | hback
  · rcases List.mem_cons.1 hfront with h | hinner
    · exact absurd h (by decide)
    · obtain ⟨b, -, hb⟩ := List.mem_flatMap.1 hinner
      exact notMem_escape b hb
  · exact absurd (List.mem_singleton.1 hback) (by decide)

theorem notMem_integer (n : Int) : 10 ∉ integer n := by
  intro hmem
  rcases List.mem_append.1 hmem with hsign | hdigit
  · split at hsign
    · exact absurd (List.mem_singleton.1 hsign) (by decide)
    · cases hsign
  · obtain ⟨c, hc, heq⟩ := List.mem_map.1 hdigit
    have hdigit := Nat.isDigit_of_mem_toDigits (by omega) (by omega) hc
    have hrange : 48 ≤ c.toNat ∧ c.toNat ≤ 57 := by
      unfold Char.isDigit at hdigit
      rw [Bool.and_eq_true, decide_eq_true_eq, decide_eq_true_eq] at hdigit
      exact ⟨UInt32.le_iff_toNat_le.1 hdigit.1, UInt32.le_iff_toNat_le.1 hdigit.2⟩
    have hnat := congrArg UInt8.toNat heq
    rw [Nat.toUInt8, UInt8.toNat_ofNat'] at hnat
    change c.toNat % 256 = 10 at hnat
    omega

theorem notMem_commas {parts : List (List UInt8)} (h : ∀ part ∈ parts, 10 ∉ part) :
    10 ∉ ([44] : List UInt8).intercalate parts := by
  induction parts with
  | nil => exact List.not_mem_nil
  | cons part rest ih =>
      have hpart := h part List.mem_cons_self
      have hrest := ih fun p hp => h p (List.mem_cons_of_mem part hp)
      cases rest with
      | nil =>
          rw [List.intercalate_singleton]
          exact hpart
      | cons next rest =>
          rw [List.intercalate_cons_cons]
          exact List.not_mem_append (List.not_mem_append hpart (by decide)) hrest

/-- Between two brackets. -/
theorem notMem_enclosed {front back : UInt8} {parts : List (List UInt8)} (hfront : 10 ≠ front)
    (hback : 10 ≠ back) (h : ∀ part ∈ parts, 10 ∉ part) :
    10 ∉ front :: ([44] : List UInt8).intercalate parts ++ [back] := by
  apply List.not_mem_append
  · exact List.not_mem_cons_of_ne_of_not_mem hfront (notMem_commas h)
  · exact fun hmem => hback (List.mem_singleton.1 hmem)

/-- Values are their own texts. -/
def compact : Serializer where
  Value := { text : List UInt8 // 10 ∉ text }
  null := ⟨[110, 117, 108, 108], by decide⟩
  bool b := ⟨if b then [116, 114, 117, 101] else [102, 97, 108, 115, 101], by cases b <;> decide⟩
  number n := ⟨integer n, notMem_integer n⟩
  string text := ⟨quoted escape text, notMem_quoted text⟩
  array items := ⟨91 :: [44].intercalate (items.map Subtype.val) ++ [93], by
    apply notMem_enclosed (by decide) (by decide)
    intro part hpart
    obtain ⟨item, -, rfl⟩ := List.mem_map.1 hpart
    exact item.2⟩
  object fields := ⟨123 :: [44].intercalate
      (fields.map fun field => quoted escape field.1 ++ 58 :: field.2.val) ++ [125], by
    apply notMem_enclosed (by decide) (by decide)
    intro part hpart
    obtain ⟨field, -, rfl⟩ := List.mem_map.1 hpart
    exact List.not_mem_append (notMem_quoted field.1)
      (List.not_mem_cons_of_ne_of_not_mem (by decide) field.2.2)⟩
  escape := escape
  pieces value := [value.val]
  pieces_null := rfl
  pieces_bool b := List.append_nil _
  pieces_number n _ _ := List.append_nil _
  pieces_string text := List.append_nil _
  pieces_array items := by simp
  pieces_object fields _ := by simp
  escape_mark b h := if_pos h
  escape_plain := escape_plain
  one_line value := by simpa using value.2

end Json
