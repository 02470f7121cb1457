import Rustymail.Lib.Words
import Rustymail.Proof.IntegrityLemmas
import Rustymail.Proof.PlainText
import Rustymail.Proof.SessionLemmas

/-!
# The normal form of an address

What a parsed address looks like, when two of them are the same, and that the database keeps addresses
in this form: a stored recipient is cut at its only at sign.
-/

namespace Rustymail

/-! ### Letter case -/

/-- The same byte, or the same letter in the other case. -/
def SameLetter (b c : UInt8) : Prop :=
  b = c ∨ (isAsciiUppercase b = true ∧ c = b + 32) ∨ (isAsciiUppercase c = true ∧ b = c + 32)

/-- Equal ignoring ASCII case. -/
def SameIgnoringCase (first second : Text) : Prop := List.Forall₂ SameLetter first second

theorem lowercaseByte_eq_iff_sameLetter {b c : UInt8} :
    lowercaseByte b = lowercaseByte c ↔ SameLetter b c := by
  unfold lowercaseByte SameLetter isAsciiUppercase
  grind

theorem lowercase_eq_iff {first second : Text} :
    lowercase first = lowercase second ↔ SameIgnoringCase first second := by
  unfold lowercase SameIgnoringCase
  rw [← List.forall₂_eq_eq_eq, List.forall₂_map_left_iff, List.forall₂_map_right_iff]
  simp only [lowercaseByte_eq_iff_sameLetter]

theorem not_isAsciiUppercase_of_lowercase {text : Text} (h : lowercase text = text) :
    ∀ b ∈ text, isAsciiUppercase b = false := by
  intro b hmem
  have hbyte : lowercaseByte b = id b :=
    List.map_inj_left.1 (h.trans (List.map_id text).symm) b hmem
  unfold lowercaseByte at hbyte
  by_contra hupper
  rw [if_pos (Bool.not_eq_false _ ▸ hupper)] at hbyte
  grind

/-! ### Local parts -/

theorem hasDoubleDot_iff {text : Text} : hasDoubleDot text = true ↔ [46, 46] <:+: text := by
  induction text with
  | nil => simp [hasDoubleDot]
  | cons a rest ih =>
      cases rest with
      | nil => simp [hasDoubleDot, List.infix_cons_iff]
      | cons b rest =>
          have hcons : [46, 46] <:+: a :: b :: rest
              ↔ [46, 46] <+: a :: b :: rest ∨ [46, 46] <:+: b :: rest := List.infix_cons_iff
          rw [hasDoubleDot, Bool.or_eq_true, ih, hcons]
          apply or_congr_left
          rw [List.cons_prefix_cons, List.cons_prefix_cons, Bool.and_eq_true, beq_iff_eq, beq_iff_eq]
          exact ⟨fun h => ⟨h.1.symm, h.2.symm, List.nil_prefix⟩, fun h => ⟨h.1.symm, h.2.1.symm⟩⟩

theorem hasDoubleDot_lowercase (text : Text) : hasDoubleDot (lowercase text) = hasDoubleDot text := by
  have hdot : ∀ b, (lowercaseByte b == 46) = (b == 46) := by
    intro b
    rw [Bool.eq_iff_iff, beq_iff_eq, beq_iff_eq, lowercaseByte_eq_iff (by decide)]
  induction text with
  | nil => rfl
  | cons a rest ih =>
      cases rest with
      | nil => rfl
      | cons b rest =>
          change (_ || hasDoubleDot (lowercase (b :: rest))) = _
          rw [ih, hdot, hdot]
          rfl

theorem localByte_lowercaseByte (b : UInt8) (h : localByte b = true) :
    localByte (lowercaseByte b) = true := by
  unfold localByte at h ⊢
  rw [Bool.or_eq_true] at h ⊢
  rcases h with halphanumeric | hother
  · left
    rwa [isAsciiAlphanumeric_lowercaseByte]
  · right
    have hsame : ∀ c ∈ ascii "!#$%&'*+-/=?^_`\x7b|\x7d~.", lowercaseByte c = c := by
      decide +kernel
    rwa [hsame b (List.contains_iff_mem.1 hother)]

theorem notMem_of_localByte {text : Text} (h : ∀ b ∈ text, localByte b = true) : 64 ∉ text := by
  intro hmem
  exact absurd (h 64 hmem) (by decide +kernel)

theorem validLocalPart_lowercase {localPart : Text} (h : validLocalPart localPart = true) :
    validLocalPart (lowercase localPart) = true := by
  simp only [validLocalPart, Bool.and_eq_true, bne_iff_ne, Bool.not_eq_true', decide_eq_true_eq,
    List.isEmpty_eq_false_iff, List.all_eq_true] at h ⊢
  obtain ⟨⟨⟨⟨⟨hnonempty, hshort⟩, hhead⟩, hlast⟩, hdots⟩, hbytes⟩ := h
  refine ⟨⟨⟨⟨⟨?_, ?_⟩, ?_⟩, ?_⟩, ?_⟩, ?_⟩
  · simpa [lowercase] using hnonempty
  · rwa [lowercase_length]
  · intro hdot
    rw [lowercase, List.head?_map, Option.map_eq_some_iff] at hdot
    obtain ⟨b, hb, heq⟩ := hdot
    rw [lowercaseByte_eq_iff (by decide)] at heq
    exact hhead (heq ▸ hb)
  · intro hdot
    rw [lowercase, List.getLast?_map, Option.map_eq_some_iff] at hdot
    obtain ⟨b, hb, heq⟩ := hdot
    rw [lowercaseByte_eq_iff (by decide)] at heq
    exact hlast (heq ▸ hb)
  · rwa [hasDoubleDot_lowercase]
  · intro b hmem
    obtain ⟨c, hc, rfl⟩ := List.mem_map.1 hmem
    exact localByte_lowercaseByte c (hbytes c hc)

/-! ### Addresses -/

/-- The bytes that an address never has: brackets, separators of a list, and the quote. -/
def reserved : Text := ascii "<>,:;\""

theorem localByte_not_reserved {b : UInt8} (h : localByte b = true) : b ∉ reserved := by
  intro hmem
  have hnone : ∀ c ∈ reserved, localByte c = false := by
    decide +kernel
  rw [hnone b hmem] at h
  cases h

namespace Address

/-- The normal form of an address with this local part. -/
structure Canonical (address : Address) (localPart : Text) : Prop where
  text_eq : address.asStr = localPart ++ 64 :: address.domain
  short : address.asStr.length ≤ 254
  one_at : address.asStr.count 64 = 1
  local_length : 1 ≤ localPart.length ∧ localPart.length ≤ 64
  local_bytes : ∀ b ∈ localPart, localByte b = true
  local_dots : localPart.head? ≠ some 46 ∧ localPart.getLast? ≠ some 46
    ∧ ¬ [46, 46] <:+: localPart
  domain_valid : validDomain address.domain = true
  domain_lower : ∀ b ∈ address.domain, isAsciiUppercase b = false
  plain : ∀ b ∈ address.asStr, (33 ≤ b ∧ b ≤ 126) ∧ b ∉ reserved
  reparses : parse address.asStr = some address
  key_parses : ∃ key, parse address.localKey = some key ∧ key.asStr = address.localKey

variable {a b : Address}

theorem lowercase_domain (address : Address) : lowercase address.domain = address.domain := by
  obtain ⟨localPart, hcut⟩ := address.rsplitOnce_text
  have hnormal := address.normal
  rw [normalize, hcut] at hnormal
  have hsame : localPart ++ 64 :: lowercase address.domain = localPart ++ 64 :: address.domain :=
    hnormal.trans (rsplitOnce_eq_some hcut).1
  exact (List.cons.inj (List.append_cancel_left hsame)).2

theorem accepts_cut {text localPart domain : Text} (hcut : rsplitOnce 64 text = some (localPart, domain)) :
    accepts text = true ↔
      text.length ≤ 254 ∧ validLocalPart localPart = true ∧ validDomain domain = true := by
  simp only [accepts, hcut, Bool.and_eq_true, decide_eq_true_eq, and_assoc]

/-- The folded address is an address that folding leaves as it is. -/
theorem parse_localKey (address : Address) :
    ∃ key, parse address.localKey = some key ∧ key.asStr = address.localKey := by
  obtain ⟨localPart, hcut⟩ := address.rsplitOnce_text
  obtain ⟨hshort, hlocal, hdomain⟩ := (accepts_cut hcut).1 address.accepted
  have hkey : address.localKey = lowercase localPart ++ 64 :: address.domain := by
    calc address.localKey
        = lowercase (localPart ++ 64 :: address.domain) := by
          rw [localKey, (rsplitOnce_eq_some hcut).1]
      _ = lowercase localPart ++ 64 :: lowercase address.domain := List.map_append
      _ = lowercase localPart ++ 64 :: address.domain := by rw [address.lowercase_domain]
  have hkeycut : rsplitOnce 64 address.localKey = some (lowercase localPart, address.domain) := by
    rw [hkey]
    exact rsplitOnce_append (rsplitOnce_eq_some hcut).2
  have haccepted : accepts address.localKey = true := by
    apply (accepts_cut hkeycut).2
    refine ⟨?_, validLocalPart_lowercase hlocal, hdomain⟩
    rwa [localKey, lowercase_length]
  have hnormal : normalize address.localKey = address.localKey := by
    rw [normalize, hkeycut]
    dsimp only
    rw [address.lowercase_domain, hkey]
  refine ⟨⟨address.localKey, haccepted, hnormal⟩, ?_, rfl⟩
  unfold parse
  rw [dif_pos haccepted]
  simp only [hnormal]

theorem canonical (address : Address) : ∃ localPart, address.Canonical localPart := by
  obtain ⟨localPart, hcut⟩ := address.rsplitOnce_text
  obtain ⟨htext, hdomainAt⟩ := rsplitOnce_eq_some hcut
  obtain ⟨hshort, hlocal, hdomain⟩ := (accepts_cut hcut).1 address.accepted
  simp only [validLocalPart, Bool.and_eq_true, bne_iff_ne, Bool.not_eq_true', decide_eq_true_eq,
    List.isEmpty_eq_false_iff, List.all_eq_true] at hlocal
  obtain ⟨⟨⟨⟨⟨hnonempty, hlocalShort⟩, hhead⟩, hlast⟩, hdots⟩, hbytes⟩ := hlocal
  refine ⟨localPart, htext, hshort, ?_, ⟨List.length_pos_iff.2 hnonempty, hlocalShort⟩, hbytes,
    ⟨hhead, hlast, ?_⟩, hdomain, not_isAsciiUppercase_of_lowercase address.lowercase_domain, ?_,
    address.parse_asStr, address.parse_localKey⟩
  · change address.text.count 64 = 1
    rw [htext, List.count_append, List.count_cons_self,
      List.count_eq_zero.2 (notMem_of_localByte hbytes), List.count_eq_zero.2 hdomainAt]
  · rw [← hasDoubleDot_iff, hdots]
    exact Bool.false_ne_true
  · intro byte hmem
    refine ⟨(accepted_bytes address.accepted hmem).1, ?_⟩
    rcases mem_address hmem with hlocal | rfl
    · exact localByte_not_reserved hlocal
    · decide +kernel

/-- What a text that parses is made of, and what becomes of it. -/
theorem parse_cut {text : Text} (h : parse text = some a) :
    ∃ localPart domain, text = localPart ++ 64 :: domain ∧ 64 ∉ localPart ∧ 64 ∉ domain
      ∧ a.asStr = localPart ++ 64 :: lowercase domain := by
  have haccepted := accepts_of_parse h
  unfold parse at h
  rw [dif_pos haccepted] at h
  cases hcut : rsplitOnce 64 text with
  | none => simp [accepts, hcut] at haccepted
  | some cut =>
      obtain ⟨localPart, domain⟩ := cut
      obtain ⟨htext, hdomain⟩ := rsplitOnce_eq_some hcut
      obtain ⟨-, hlocal, -⟩ := (accepts_cut hcut).1 haccepted
      simp only [validLocalPart, Bool.and_eq_true, List.all_eq_true] at hlocal
      refine ⟨localPart, domain, htext, notMem_of_localByte hlocal.2, hdomain, ?_⟩
      rw [← Option.some.inj h]
      change normalize text = _
      rw [normalize, hcut]

theorem eq_iff_asStr : a = b ↔ a.asStr = b.asStr := by
  constructor
  · exact congrArg asStr
  · intro h
    obtain ⟨text, _, _⟩ := a
    obtain ⟨text', _, _⟩ := b
    obtain rfl : text = text' := h
    rfl

/-- Two inputs give one address if they agree up to the case of the domain, and only then. -/
theorem parse_eq_iff {text text' : Text} (h : parse text = some a) (h' : parse text' = some b) :
    a = b ↔ ∃ localPart domain domain', text = localPart ++ 64 :: domain
      ∧ text' = localPart ++ 64 :: domain' ∧ 64 ∉ localPart ∧ SameIgnoringCase domain domain' := by
  obtain ⟨localPart, domain, rfl, hlocal, -, ha⟩ := parse_cut h
  obtain ⟨localPart', domain', rfl, hlocal', -, hb⟩ := parse_cut h'
  rw [eq_iff_asStr, ha, hb]
  constructor
  · intro heq
    obtain ⟨rfl, hdomain⟩ := Words.cut_unique hlocal hlocal' heq
    exact ⟨localPart, domain, domain', rfl, rfl, hlocal, lowercase_eq_iff.1 hdomain⟩
  · rintro ⟨before, after, after', htext, htext', hbefore, hsame⟩
    obtain ⟨rfl, rfl⟩ := Words.cut_unique hlocal hbefore htext
    obtain ⟨rfl, rfl⟩ := Words.cut_unique hlocal' hbefore htext'
    rw [lowercase_eq_iff.2 hsame]

end Address

/-! ### Stored recipients -/

theorem domainPart_of_rsplitOnce {text before after : Text}
    (h : rsplitOnce 64 text = some (before, after)) : domainPart text = after := by
  unfold domainPart
  rw [h]
  rfl

/-- The delivery, if there is one, goes to the domain behind the last at sign of its recipient. -/
def View.Addressed (v : View) : Prop :=
  ∀ row, v.row = some row → row.destinationDomain = domainPart row.recipient

section Addressed

open Lifecycle

variable {e : LifeEvent} {v v' : View}

theorem View.Addressed.of_row {row row' : Delivery} (h : v.Addressed) (hold : v.row = some row)
    (hrow' : v'.row = some row') (hrecipient : row'.recipient = row.recipient)
    (hdomain : row'.destinationDomain = row.destinationDomain) : v'.Addressed := by
  intro found hfound
  obtain rfl := Option.some.inj (hrow'.symm.trans hfound)
  rw [hrecipient, hdomain]
  exact h row hold

/-- Nothing that happens to a delivery changes where it goes. -/
theorem Lifecycle.Step.addressed (hstep : Step e v v')
    (hcreated : ∀ row, e = .created row → row.destinationDomain = domainPart row.recipient)
    (h : v.Addressed) : v'.Addressed := by
  cases hstep with
  | created =>
      rintro found ⟨⟩
      exact hcreated _ rfl
  | bodyMarked => exact h
  | leased hold | renewed hold | exhausted hold | expired hold | held hold | closed hold
  | reported hold | finished hold | recovered hold | retried hold => exact h.of_row hold rfl rfl rfl
  | suppressed hold hroute hfailed hpending =>
      refine h.of_row hold rfl ?_ ?_
      all_goals
        unfold Delivery.suppress
        rw [if_pos hpending]
  | postponed hold =>
      refine h.of_row hold rfl ?_ ?_
      all_goals
        unfold Delivery.postponeReport
        split_ifs <;> rfl

end Addressed

theorem World.Reachable.addressed {w : World} (h : w.Reachable) (id : Text) :
    (w.store.db.view id).Addressed := by
  suffices hboth : w.store.db.Keys ∧ (w.store.db.view id).Addressed from hboth.2
  refine h.of_commits (fun db => db.Keys ∧ (db.view id).Addressed) ⟨Db.Keys.empty, ?_⟩ ?_
  · intro row hrow
    cases hrow
  · rintro w op db db' hcommit ⟨hkeys, haddressed⟩
    refine ⟨hcommit.keys hkeys, (hcommit.addresses hkeys id).keeps View.Addressed ?_ haddressed⟩
    intro e v v' hallowed hstep
    exact hstep.addressed hallowed.2

/-- A stored recipient is an address as it is rendered, or folded on a local delivery, and the domain
of the delivery is the address's. -/
structure Delivery.Addresses (row : Delivery) (address : Address) : Prop where
  relayed : row.route = .relay → row.recipient = address.asStr
    ∧ Address.parse row.recipient = some address
  mailed : row.route = .localMail → row.recipient = address.localKey
  cut : ∃ localPart, rsplitOnce 64 row.recipient = some (localPart, address.domain)
  domain : row.destinationDomain = address.domain

theorem World.Reachable.addresses {w : World} (h : w.Reachable) {row : Delivery}
    (hrow : row ∈ w.store.db.deliveries) : ∃ address, row.Addresses address := by
  have hdomain : row.destinationDomain = domainPart row.recipient :=
    h.addressed row.id row (Keyed.lookup_of_mem h.keys.deliveries hrow)
  rcases h.delivery_wf hrow with ⟨hroute, -⟩ | ⟨hroute, -⟩
  · obtain ⟨address, hrecipient⟩ := h.coherent.recipient row hrow hroute
    have hcut : ∃ localPart, rsplitOnce 64 row.recipient = some (localPart, address.domain) := by
      rw [hrecipient]
      exact address.rsplitOnce_text
    refine ⟨address, fun _ => ⟨hrecipient, ?_⟩, fun hlocal => ?_, hcut, ?_⟩
    · rw [hrecipient]
      exact address.parse_asStr
    · rw [hroute] at hlocal
      cases hlocal
    · obtain ⟨localPart, hcut⟩ := hcut
      rw [hdomain, domainPart_of_rsplitOnce hcut]
  · obtain ⟨address, hrecipient⟩ := h.coherent.mailbox row hrow hroute
    have hcut : ∃ localPart, rsplitOnce 64 row.recipient = some (localPart, address.domain) := by
      rw [hrecipient]
      exact Server.rsplitOnce_localKey address
    refine ⟨address, fun hrelay => ?_, fun _ => hrecipient, hcut, ?_⟩
    · rw [hroute] at hrelay
      cases hrelay
    · obtain ⟨localPart, hcut⟩ := hcut
      rw [hdomain, domainPart_of_rsplitOnce hcut]

/-- **Addresses are canonical**, what is equal about them can be read off their bytes, and in every
reachable store each delivery is to an address in its normal form and goes to that address's domain. -/
theorem addresses_canonical :
    (∀ text address, Address.parse text = some address →
        ∃ localPart, address.Canonical localPart)
      ∧ (∀ a b : Address, a.localKey = b.localKey ↔ SameIgnoringCase a.asStr b.asStr)
      ∧ (∀ text text' a b, Address.parse text = some a → Address.parse text' = some b →
        (a = b ↔ ∃ localPart domain domain', text = localPart ++ 64 :: domain
          ∧ text' = localPart ++ 64 :: domain' ∧ 64 ∉ localPart
          ∧ SameIgnoringCase domain domain'))
      ∧ (∀ a : Address, (∃ localPart, rsplitOnce 64 a.asStr = some (localPart, a.domain))
        ∧ ∃ localPart, rsplitOnce 64 a.localKey = some (localPart, a.domain))
      ∧ ∀ w : World, w.Reachable → ∀ row ∈ w.store.db.deliveries, ∃ address, row.Addresses address := by
  refine ⟨?_, ?_, ?_, ?_, ?_⟩
  · intro text address _
    exact address.canonical
  · intro a b
    exact lowercase_eq_iff
  · intro text text' a b ha hb
    exact Address.parse_eq_iff ha hb
  · intro a
    exact ⟨a.rsplitOnce_text, Server.rsplitOnce_localKey a⟩
  · intro w hreach row hrow
    exact hreach.addresses hrow

/-- The case of the domain does not matter, that of the local part does, and the sample directory has
a delivery under way. -/
theorem addresses_canonical_mixed_case :
    ∃ a b localPart, Address.parse (ascii "Alice+test@EXAMPLE.com") = some a
      ∧ Address.parse (ascii "Alice+test@example.COM") = some b ∧ a.Canonical localPart ∧ a = b
      ∧ Sample.inBody.store.db.deliveries ≠ []
      ∧ ∀ row ∈ Sample.inBody.store.db.deliveries, ∃ address, row.Addresses address := by
  obtain ⟨hcanonical, -, hequal, -, hrows⟩ := addresses_canonical
  have hfirst : (Address.parse (ascii "Alice+test@EXAMPLE.com")).isSome := by decide +kernel
  have hsecond : (Address.parse (ascii "Alice+test@example.COM")).isSome := by decide +kernel
  obtain ⟨a, ha⟩ := Option.isSome_iff_exists.1 hfirst
  obtain ⟨b, hb⟩ := Option.isSome_iff_exists.1 hsecond
  obtain ⟨localPart, hlocal⟩ := hcanonical _ a ha
  refine ⟨a, b, localPart, ha, hb, hlocal, (hequal _ _ a b ha hb).2 ?_, by decide,
    hrows Sample.inBody (Sample.reachable _)⟩
  exact ⟨ascii "Alice+test", ascii "EXAMPLE.com", ascii "example.COM", by decide, by decide, by decide,
    lowercase_eq_iff.1 (by decide)⟩

end Rustymail
