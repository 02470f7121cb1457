import Mathlib.Data.List.Basic
import Mathlib.Tactic.Common

/-!
# Base64

The encoding with the standard alphabet and canonical padding. A `Codec` is what a user of it may rely
on: decoding inverts encoding, a text that decodes has the length that its padding gives it, and
nothing outside the alphabet is written.
-/

namespace Base64

/-- A byte that an encoding consists of: a digit of the alphabet, or padding. -/
def symbol (b : UInt8) : Bool :=
  (65 ≤ b && b ≤ 90) || (97 ≤ b && b ≤ 122) || (48 ≤ b && b ≤ 57) || b == 43 || b == 47 || b == 61

structure Codec where
  encode : List UInt8 → List UInt8
  decode : List UInt8 → Option (List UInt8)
  decode_encode : ∀ raw, decode (encode raw) = some raw
  length_of_decode : ∀ encoded raw, decode encoded = some raw →
    encoded.length = 4 * ((raw.length + 2) / 3)
  symbol_encode : ∀ raw, ∀ b ∈ encode raw, symbol b = true

theorem Codec.length_encode (codec : Codec) (raw : List UInt8) :
    (codec.encode raw).length = 4 * ((raw.length + 2) / 3) :=
  codec.length_of_decode _ _ (codec.decode_encode raw)

/-! ### The standard engine -/

/-- The digit for six bits. -/
def digit (n : Nat) : UInt8 :=
  if n < 26 then (65 + n).toUInt8
  else if n < 52 then (97 + (n - 26)).toUInt8
  else if n < 62 then (48 + (n - 52)).toUInt8
  else if n = 62 then 43
  else 47

/-- The six bits of a digit. -/
def value (b : UInt8) : Option Nat :=
  if 65 ≤ b ∧ b ≤ 90 then some (b.toNat - 65)
  else if 97 ≤ b ∧ b ≤ 122 then some (b.toNat - 97 + 26)
  else if 48 ≤ b ∧ b ≤ 57 then some (b.toNat - 48 + 52)
  else if b = 43 then some 62
  else if b = 47 then some 63
  else none

theorem value_digit {n : Nat} (h : n < 64) : value (digit n) = some n := by
  have hall : ∀ k < 64, value (digit k) = some k := by decide +kernel
  exact hall n h

theorem symbol_digit {n : Nat} (h : n < 64) : symbol (digit n) = true := by
  have hall : ∀ k < 64, symbol (digit k) = true := by decide +kernel
  exact hall n h

theorem digit_ne_pad {n : Nat} (h : n < 64) : digit n ≠ 61 := by
  have hall : ∀ k < 64, digit k ≠ 61 := by decide +kernel
  exact hall n h

/-- The digits for three bytes. -/
def quantum (a b c : UInt8) : List UInt8 :=
  [digit (a.toNat / 4), digit (a.toNat % 4 * 16 + b.toNat / 16),
    digit (b.toNat % 16 * 4 + c.toNat / 64), digit (c.toNat % 64)]

def encode : List UInt8 → List UInt8
  | a :: b :: c :: rest => quantum a b c ++ encode rest
  | [a, b] => (quantum a b 0).take 3 ++ [61]
  | [a] => (quantum a 0 0).take 2 ++ [61, 61]
  | [] => []

/-- The three bytes of four digits. -/
def bytes (w x y z : Nat) : List UInt8 :=
  [(w * 4 + x / 16).toUInt8, (x % 16 * 16 + y / 4).toUInt8, (y % 4 * 64 + z).toUInt8]

/-- Padding stands at the end only, and the bits it cuts off are zero. -/
def decode : List UInt8 → Option (List UInt8)
  | [] => some []
  | p :: q :: r :: s :: rest => do
      let w ← value p
      let x ← value q
      if s = 61 ∧ rest = [] then
        if r = 61 then
          if x % 16 = 0 then some ((bytes w x 0 0).take 1) else none
        else
          let y ← value r
          if y % 4 = 0 then some ((bytes w x y 0).take 2) else none
      else
        let y ← value r
        let z ← value s
        let more ← decode rest
        some (bytes w x y z ++ more)
  | _ => none

theorem bytes_quantum (a b c : UInt8) :
    bytes (a.toNat / 4) (a.toNat % 4 * 16 + b.toNat / 16) (b.toNat % 16 * 4 + c.toNat / 64)
      (c.toNat % 64) = [a, b, c] := by
  have ha := a.toNat_lt
  have hb := b.toNat_lt
  have hc := c.toNat_lt
  have h1 : a.toNat / 4 * 4 + (a.toNat % 4 * 16 + b.toNat / 16) / 16 = a.toNat := by omega
  have h2 : (a.toNat % 4 * 16 + b.toNat / 16) % 16 * 16 + (b.toNat % 16 * 4 + c.toNat / 64) / 4
      = b.toNat := by omega
  have h3 : (b.toNat % 16 * 4 + c.toNat / 64) % 4 * 64 + c.toNat % 64 = c.toNat := by omega
  unfold bytes
  rw [h1, h2, h3]
  simp

/-- The four digits for three bytes are digits. -/
theorem quantum_lt (a b c : UInt8) :
    a.toNat / 4 < 64 ∧ a.toNat % 4 * 16 + b.toNat / 16 < 64 ∧ b.toNat % 16 * 4 + c.toNat / 64 < 64
      ∧ c.toNat % 64 < 64 := by
  have ha := a.toNat_lt
  have hb := b.toNat_lt
  have hc := c.toNat_lt
  omega

theorem decode_encode (raw : List UInt8) : decode (encode raw) = some raw := by
  fun_induction encode raw with
  | case1 a b c rest ih =>
      obtain ⟨hw, hx, hy, hz⟩ := quantum_lt a b c
      change decode (_ :: _ :: _ :: _ :: encode rest) = _
      rw [decode, value_digit hw, value_digit hx, value_digit hy, value_digit hz, ih]
      simp only [Option.bind_eq_bind, Option.bind_some]
      rw [if_neg (fun h => digit_ne_pad hz h.1), bytes_quantum]
      rfl
  | case2 a b =>
      obtain ⟨hw, hx, hy, -⟩ := quantum_lt a b 0
      change decode [_, _, _, 61] = _
      rw [decode, value_digit hw, value_digit hx, value_digit hy]
      simp only [Option.bind_eq_bind, Option.bind_some]
      rw [if_pos ⟨trivial, trivial⟩, if_neg (digit_ne_pad hy)]
      have hrest : (b.toNat % 16 * 4 + (0 : UInt8).toNat / 64) % 4 = 0 := by simp
      have hbytes := bytes_quantum a b 0
      rw [if_pos hrest]
      change bytes _ _ _ 0 = _ at hbytes
      rw [hbytes]
      rfl
  | case3 a =>
      obtain ⟨hw, hx, -, -⟩ := quantum_lt a 0 0
      change decode [_, _, 61, 61] = _
      rw [decode, value_digit hw, value_digit hx]
      simp only [Option.bind_eq_bind, Option.bind_some]
      rw [if_pos ⟨trivial, trivial⟩, if_pos trivial]
      have hrest : (a.toNat % 4 * 16 + (0 : UInt8).toNat / 16) % 16 = 0 := by simp
      have hbytes := bytes_quantum a 0 0
      rw [if_pos hrest]
      change bytes _ _ 0 0 = _ at hbytes
      rw [hbytes]
      rfl
  | case4 => rfl

theorem length_of_decode (encoded raw : List UInt8) (h : decode encoded = some raw) :
    encoded.length = 4 * ((raw.length + 2) / 3) := by
  fun_induction decode encoded generalizing raw with
  | case1 =>
      cases h
      rfl
  | case2 p q r s rest ih =>
      simp only [Option.bind_eq_bind, Option.bind_eq_some_iff] at h
      obtain ⟨w, -, x, -, h⟩ := h
      by_cases hlast : s = 61 ∧ rest = []
      · rw [if_pos hlast] at h
        rw [hlast.2]
        by_cases hpad : r = 61
        · rw [if_pos hpad] at h
          split_ifs at h
          cases h
          simp [bytes]
        · rw [if_neg hpad, Option.bind_eq_some_iff] at h
          obtain ⟨y, -, h⟩ := h
          split_ifs at h
          cases h
          simp [bytes]
      · rw [if_neg hlast] at h
        simp only [Option.bind_eq_some_iff] at h
        obtain ⟨y, -, z, -, more, hmore, h⟩ := h
        cases h
        have hrest := ih more hmore
        simp only [bytes, List.length_cons, List.length_append, List.length_nil]
        omega
  | case3 => cases h

theorem symbol_encode (raw : List UInt8) : ∀ b ∈ encode raw, symbol b = true := by
  have hquantum : ∀ a b c, ∀ d ∈ quantum a b c, symbol d = true := by
    intro a b c d hd
    obtain ⟨hw, hx, hy, hz⟩ := quantum_lt a b c
    simp only [quantum, List.mem_cons, List.not_mem_nil, or_false] at hd
    rcases hd with rfl | rfl | rfl | rfl
    · exact symbol_digit hw
    · exact symbol_digit hx
    · exact symbol_digit hy
    · exact symbol_digit hz
  have hpad : symbol 61 = true := rfl
  fun_induction encode raw with
  | case1 a b c rest ih =>
      intro d hd
      rcases List.mem_append.1 hd with hfirst | hlater
      · exact hquantum a b c d hfirst
      · exact ih d hlater
  | case2 a b =>
      intro d hd
      rcases List.mem_append.1 hd with hfirst | hlater
      · exact hquantum a b 0 d (List.mem_of_mem_take hfirst)
      · rw [List.mem_singleton.1 hlater]
        exact hpad
  | case3 a =>
      intro d hd
      rcases List.mem_append.1 hd with hfirst | hlater
      · exact hquantum a 0 0 d (List.mem_of_mem_take hfirst)
      · simp only [List.mem_cons, List.not_mem_nil, or_false, or_self] at hlater
        rw [hlater]
        exact hpad
  | case4 =>
      intro d hd
      cases hd

/-- The standard engine. -/
def standard : Codec where
  encode := encode
  decode := decode
  decode_encode := decode_encode
  length_of_decode := length_of_decode
  symbol_encode := symbol_encode

end Base64
