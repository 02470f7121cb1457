import Rustymail.Lib.Latest
import Rustymail.Proof.ReplyParsing

/-!
# What an EHLO reply offers

The loop of `response` sets three of the capabilities and assigns the other two. So the order of the
lines counts where two AUTH lines, or two SIZE lines, differ in what they assign.
-/

namespace Rustymail.Client

open Dialogue Latest

/-! ### What one line says -/

/-- The first word of the text is this keyword, in any case. -/
def Names (keyword : String) (text : Text) : Prop :=
  ∃ word others, asciiWords text = word :: others ∧ uppercase word = ascii keyword

/-- The text is an AUTH line with PLAIN among its mechanisms. -/
def OffersPlain (text : Text) : Prop :=
  ∃ word others, asciiWords text = word :: others ∧ uppercase word = ascii "AUTH"
    ∧ ∃ mechanism ∈ others, uppercase mechanism = ascii "PLAIN"

def names (keyword : String) (text : Text) : Bool :=
  uppercase ((asciiWords text).headD []) == ascii keyword

/-- What an AUTH line makes of `plain`. -/
def plainOf (text : Text) : Option Bool :=
  if names "AUTH" text then
    some ((asciiWords text).tail.any fun word => uppercase word == ascii "PLAIN")
  else none

/-- The number behind a SIZE, if there is one. -/
def limitOf (text : Text) : Option Nat := (asciiWords text).tail.head?.bind parseU64

/-- What a SIZE line makes of `size`. -/
def sizeOf (text : Text) : Option (Option (Option Nat)) :=
  if names "SIZE" text then some (some (limitOf text)) else none

/-- The capabilities after one more line. -/
def Capabilities.with (capabilities : Capabilities) (text : Text) : Capabilities where
  pipelining := capabilities.pipelining || names "PIPELINING" text
  starttls := capabilities.starttls || names "STARTTLS" text
  eightBit := capabilities.eightBit || names "8BITMIME" text
  plain := (plainOf text).getD capabilities.plain
  size := (sizeOf text).getD capabilities.size

section Text

variable {keyword : String} {text : Text} {capabilities captured : Capabilities}

theorem names_iff (hkeyword : ascii keyword ≠ []) : names keyword text = true ↔ Names keyword text := by
  unfold names Names
  rw [beq_iff_eq]
  cases hwords : asciiWords text with
  | nil =>
      refine iff_of_false (fun h => hkeyword h.symm) ?_
      rintro ⟨word, others, heq, -⟩
      cases heq
  | cons word others =>
      rw [List.headD_cons]
      constructor
      · intro h
        exact ⟨word, others, rfl, h⟩
      · rintro ⟨_, _, ⟨⟩, h⟩
        exact h

theorem plainOf_eq_some_true : plainOf text = some true ↔ OffersPlain text := by
  unfold plainOf OffersPlain names
  cases hwords : asciiWords text with
  | nil =>
      refine iff_of_false ?_ ?_
      · rw [if_neg (by decide)]
        exact Option.some_ne_none true ∘ Eq.symm
      · rintro ⟨word, others, heq, -⟩
        cases heq
  | cons word others =>
      rw [List.headD_cons, List.tail_cons]
      constructor
      · intro h
        split_ifs at h with hauth
        rw [Option.some.injEq, List.any_eq_true] at h
        obtain ⟨mechanism, hmem, hplain⟩ := h
        exact ⟨word, others, rfl, beq_iff_eq.1 hauth, mechanism, hmem, beq_iff_eq.1 hplain⟩
      · rintro ⟨_, _, ⟨⟩, hauth, mechanism, hmem, hplain⟩
        rw [if_pos (beq_iff_eq.2 hauth), Option.some.injEq, List.any_eq_true]
        exact ⟨mechanism, hmem, beq_iff_eq.2 hplain⟩

theorem names_of_uppercase {word : Text} (hword : uppercase ((asciiWords text).headD []) = word) :
    names keyword text = (word == ascii keyword) := by
  unfold names
  rw [hword]

/-- The arms of the loop, seen alike. -/
theorem capture_with (h : capabilities.capture text = some captured) :
    captured = capabilities.with text := by
  unfold Capabilities.capture at h
  dsimp only at h
  unfold Capabilities.with plainOf sizeOf limitOf
  generalize hword : uppercase ((asciiWords text).headD []) = word at h
  simp only [names_of_uppercase hword]
  split_ifs at h with hpipelining hstarttls heightBit hauth hsize
  · cases h
    rw [hpipelining]
    simp +decide
  · cases h
    rw [hstarttls]
    simp +decide
  · cases h
    rw [heightBit]
    simp +decide
  · cases h
    rw [hauth]
    simp +decide
  · rw [hsize]
    cases htail : (asciiWords text).tail with
    | nil =>
        rw [htail] at h
        cases h
        simp +decide
    | cons limit others =>
        rw [htail] at h
        obtain ⟨n, hn, rfl⟩ := Option.map_eq_some_iff.1 h
        simp +decide [hn]
  · cases h
    rw [beq_eq_false_iff_ne.2 hpipelining, beq_eq_false_iff_ne.2 hstarttls,
      beq_eq_false_iff_ne.2 heightBit, beq_eq_false_iff_ne.2 hauth, beq_eq_false_iff_ne.2 hsize]
    simp

end Text

/-! ### What all lines say -/

/-- What the lines after the first say, without code and separator. -/
def texts (lines : List Text) : List Text := lines.tail.map fun line => line.drop 4

section Fold

variable {lines : List Text} {captured capabilities : Capabilities}

theorem foldlM_capture {list : List Text}
    (h : list.foldlM Capabilities.capture capabilities = some captured) :
    captured.pipelining = (capabilities.pipelining || list.any (names "PIPELINING"))
      ∧ captured.starttls = (capabilities.starttls || list.any (names "STARTTLS"))
      ∧ captured.eightBit = (capabilities.eightBit || list.any (names "8BITMIME"))
      ∧ captured.plain = latest plainOf capabilities.plain list
      ∧ captured.size = latest sizeOf capabilities.size list := by
  induction list generalizing capabilities with
  | nil =>
      cases h
      refine ⟨?_, ?_, ?_, rfl, rfl⟩
      all_goals exact (Bool.or_false _).symm
  | cons text list ih =>
      rw [List.foldlM_cons] at h
      obtain ⟨next, hnext, hlater⟩ := Option.bind_eq_some_iff.1 h
      obtain rfl := capture_with hnext
      obtain ⟨hpipelining, hstarttls, heightBit, hplain, hsize⟩ := ih hlater
      refine ⟨?_, ?_, ?_, hplain, hsize⟩
      · rw [hpipelining, List.any_cons, ← Bool.or_assoc]
        rfl
      · rw [hstarttls, List.any_cons, ← Bool.or_assoc]
        rfl
      · rw [heightBit, List.any_cons, ← Bool.or_assoc]
        rfl

theorem listing_texts : listing true 250 {} lines.tail = (texts lines).foldlM Capabilities.capture {} := by
  unfold listing texts
  rw [List.foldlM_map]
  rfl

theorem any_names {keyword : String} (hkeyword : ascii keyword ≠ []) (list : List Text) :
    list.any (names keyword) = true ↔ ∃ text ∈ list, Names keyword text := by
  rw [List.any_eq_true]
  simp only [names_iff hkeyword]

/-- What is captured of a reply, one capability at a time. -/
theorem listing_captured (h : listing true 250 {} lines.tail = some captured) :
    (captured.pipelining = true ↔ ∃ text ∈ texts lines, Names "PIPELINING" text)
      ∧ (captured.starttls = true ↔ ∃ text ∈ texts lines, Names "STARTTLS" text)
      ∧ (captured.eightBit = true ↔ ∃ text ∈ texts lines, Names "8BITMIME" text)
      ∧ captured.plain = latest plainOf false (texts lines)
      ∧ captured.size = latest sizeOf none (texts lines) := by
  rw [listing_texts] at h
  obtain ⟨hpipelining, hstarttls, heightBit, hplain, hsize⟩ := foldlM_capture h
  refine ⟨?_, ?_, ?_, hplain, hsize⟩
  · rw [hpipelining, Bool.false_or]
    exact any_names (by decide) _
  · rw [hstarttls, Bool.false_or]
    exact any_names (by decide) _
  · rw [heightBit, Bool.false_or]
    exact any_names (by decide) _

end Fold

/-! ### Exchanging two lines -/

/-- The first line with what the other one says. -/
def graft (line other : Text) : Text := line.take 4 ++ other.drop 4

section Exchange

variable {code : Nat} {line other : Text} {lines lines' : List Text}

theorem replyCode_take (line : Text) : replyCode (line.take 4) = replyCode line := by
  match line with
  | [] => rfl
  | [_] => rfl
  | [_, _] => rfl
  | [_, _, _] => rfl
  | _ :: _ :: _ :: _ :: _ => rfl

theorem separator_take (line : Text) : separator (line.take 4) = separator line := by
  match line with
  | [] => rfl
  | [_] => rfl
  | [_, _] => rfl
  | [_, _, _] => rfl
  | _ :: _ :: _ :: _ :: _ => rfl

theorem isReply_take : IsReply code (lines.map fun line => line.take 4) ↔ IsReply code lines := by
  unfold IsReply
  constructor
  · rintro ⟨hlow, hhigh, first, last, heq, hfirst, hcode, hends⟩
    obtain ⟨first', last', rfl, rfl, hlast⟩ := List.map_eq_append_iff.1 heq
    obtain ⟨last', rfl, rfl⟩ := List.map_eq_singleton_iff.1 hlast
    refine ⟨hlow, hhigh, first', last', rfl, ?_, ?_, ?_⟩
    · intro line hmem
      rw [← replyCode_take, ← separator_take]
      exact hfirst _ (List.mem_map_of_mem hmem)
    · rwa [← replyCode_take]
    · rwa [← separator_take]
  · rintro ⟨hlow, hhigh, first, last, rfl, hfirst, hcode, hends⟩
    refine ⟨hlow, hhigh, first.map fun line => line.take 4, last.take 4, by simp, ?_, ?_, ?_⟩
    · intro line hmem
      obtain ⟨old, hold, rfl⟩ := List.mem_map.1 hmem
      rw [replyCode_take, separator_take]
      exact hfirst old hold
    · rwa [replyCode_take]
    · rwa [separator_take]

theorem graft_take (h : 4 ≤ line.length) : (graft line other).take 4 = line.take 4 := by
  unfold graft
  rw [List.take_append_of_le_length (by rw [List.length_take]; omega), List.take_take, Nat.min_self]

theorem graft_drop (h : 4 ≤ line.length) : (graft line other).drop 4 = other.drop 4 := by
  have hlength : (line.take 4).length = 4 := by
    rw [List.length_take]
    omega
  unfold graft
  rw [List.drop_append_of_le_length (by omega), List.drop_of_length_le (by omega), List.nil_append]

theorem graft_length (h : 4 ≤ line.length) (h' : 4 ≤ other.length) :
    (graft line other).length = other.length := by
  unfold graft
  rw [List.length_append, List.length_take, List.length_drop]
  omega

/-- Two lines of a reply, after the first, exchange what they say. -/
theorem WellFormedReply.exchange {start first second : Text} {before middle after : List Text}
    (h : WellFormedReply code (start :: (before ++ first :: (middle ++ second :: after))))
    (hfirst : 4 ≤ first.length) (hsecond : 4 ≤ second.length) :
    WellFormedReply code
      (start :: (before ++ graft first second :: (middle ++ graft second first :: after))) := by
  obtain ⟨hreply, hfew, hshort, hfits, hprintable⟩ := h
  have hmem : ∀ {line}, line ∈ start :: (before ++ graft first second
        :: (middle ++ graft second first :: after)) →
      line ∈ start :: (before ++ first :: (middle ++ second :: after))
        ∨ line = graft first second ∨ line = graft second first := by
    intro line hline
    simp only [List.mem_cons, List.mem_append] at hline ⊢
    tauto
  have hfirstMem : first ∈ start :: (before ++ first :: (middle ++ second :: after)) := by simp
  have hsecondMem : second ∈ start :: (before ++ first :: (middle ++ second :: after)) := by simp
  refine ⟨?_, ?_, ?_, ?_, ?_⟩
  · rw [← isReply_take] at hreply ⊢
    simpa [graft_take hfirst, graft_take hsecond] using hreply
  · simpa using hfew
  · simp only [octets_cons, octets_append] at hshort ⊢
    rw [graft_length hfirst hsecond, graft_length hsecond hfirst]
    omega
  · intro line hline
    rcases hmem hline with hold | rfl | rfl
    · exact hfits line hold
    · rw [graft_length hfirst hsecond]
      exact hfits second hsecondMem
    · rw [graft_length hsecond hfirst]
      exact hfits first hfirstMem
  · intro line hline
    rcases hmem hline with hold | rfl | rfl
    · exact hprintable line hold
    · intro b hb
      rcases List.mem_append.1 hb with htake | hdrop
      · exact hprintable first hfirstMem b (List.mem_of_mem_take htake)
      · exact hprintable second hsecondMem b (List.mem_of_mem_drop hdrop)
    · intro b hb
      rcases List.mem_append.1 hb with htake | hdrop
      · exact hprintable second hsecondMem b (List.mem_of_mem_take htake)
      · exact hprintable first hfirstMem b (List.mem_of_mem_drop hdrop)

/-- So two texts of a reply can be exchanged, if both say something. -/
theorem exists_exchanged {first middle last : List Text} {x y : Text}
    (h : WellFormedReply code lines) (htexts : texts lines = first ++ x :: (middle ++ y :: last))
    (hx : x ≠ []) (hy : y ≠ []) :
    ∃ lines', WellFormedReply code lines' ∧ texts lines' = first ++ y :: (middle ++ x :: last) := by
  cases lines with
  | nil =>
      have hlength := congrArg List.length htexts
      simp [texts] at hlength
  | cons start tail =>
      obtain ⟨before, tail, rfl, rfl, htail⟩ := List.map_eq_append_iff.1 htexts
      obtain ⟨one, rest, rfl, rfl, hrest⟩ := List.map_eq_cons_iff.1 htail
      obtain ⟨between, more, rfl, rfl, hmore⟩ := List.map_eq_append_iff.1 hrest
      obtain ⟨two, after, rfl, rfl, rfl⟩ := List.map_eq_cons_iff.1 hmore
      have hone : 4 ≤ one.length := by
        by_contra hshort
        exact hx (List.drop_of_length_le (by omega))
      have htwo : 4 ≤ two.length := by
        by_contra hshort
        exact hy (List.drop_of_length_le (by omega))
      refine ⟨_, h.exchange hone htwo, ?_⟩
      unfold texts
      rw [List.tail_cons, List.map_append, List.map_cons, List.map_append, List.map_cons,
        graft_drop hone, graft_drop htwo]

end Exchange

/-! ### When the order does not count -/

/-- On every stream that begins with these lines the client captures these capabilities. -/
def Gives (deadline : Deadline) (lines : List Text) (capabilities : Capabilities) : Prop :=
  ∀ (wire : Wire) (rest : Text), wire.bytes = onStream lines ++ rest →
    ∃ after, wire.play (response deadline true) = (.done ⟨250, capabilities⟩, after)

/-- The capabilities are what the set of the lines after the first offers. -/
structure OrderFree (deadline : Deadline) (lines : List Text) (capabilities : Capabilities) : Prop where
  pipelining : capabilities.pipelining = true ↔ ∃ text ∈ texts lines, Names "PIPELINING" text
  starttls : capabilities.starttls = true ↔ ∃ text ∈ texts lines, Names "STARTTLS" text
  eightBit : capabilities.eightBit = true ↔ ∃ text ∈ texts lines, Names "8BITMIME" text
  plain : capabilities.plain = true ↔ ∃ text ∈ texts lines, OffersPlain text
  same : ∀ lines', WellFormedReply 250 lines' → (∀ text, text ∈ texts lines' ↔ text ∈ texts lines) →
    Gives deadline lines' capabilities

/-- All AUTH lines offer PLAIN, or none does. -/
def AuthAgrees (lines : List Text) : Prop :=
  ∀ text ∈ texts lines, ∀ other ∈ texts lines, Names "AUTH" text → Names "AUTH" other →
    (OffersPlain text ↔ OffersPlain other)

/-- All SIZE lines have the same number, or none has one. -/
def SizesAgree (lines : List Text) : Prop :=
  ∀ text ∈ texts lines, ∀ other ∈ texts lines, Names "SIZE" text → Names "SIZE" other →
    limitOf text = limitOf other

section Order

variable {deadline : Deadline} {lines lines' : List Text} {capabilities captured : Capabilities}

theorem ne_nil_of_names {keyword : String} {text : Text} (h : names keyword text = true)
    (hkeyword : ascii keyword ≠ []) : text ≠ [] := by
  rintro rfl
  obtain ⟨word, others, hwords, -⟩ := (names_iff hkeyword).1 h
  cases hwords

theorem plainOf_eq_some {text : Text} {b : Bool} :
    plainOf text = some b ↔ Names "AUTH" text ∧ (b = true ↔ OffersPlain text) := by
  rw [← names_iff (by decide), ← plainOf_eq_some_true]
  unfold plainOf
  split_ifs with hauth
  · rw [Option.some.injEq, Option.some.injEq]
    simp only [hauth, true_and]
    rw [Bool.eq_iff_iff]
    exact ⟨Iff.symm, Iff.symm⟩
  · simp [hauth]

theorem authAgrees_iff : AuthAgrees lines ↔ Agree plainOf (texts lines) := by
  unfold AuthAgrees Agree
  constructor
  · intro h text hmem other hmem' v w hv hw
    obtain ⟨hauth, hplain⟩ := plainOf_eq_some.1 hv
    obtain ⟨hauth', hplain'⟩ := plainOf_eq_some.1 hw
    rw [Bool.eq_iff_iff, hplain, hplain']
    exact h text hmem other hmem' hauth hauth'
  · intro h text hmem other hmem' hauth hauth'
    classical
    have hsame := h text hmem other hmem' (decide (OffersPlain text)) (decide (OffersPlain other))
      (plainOf_eq_some.2 ⟨hauth, decide_eq_true_iff⟩) (plainOf_eq_some.2 ⟨hauth', decide_eq_true_iff⟩)
    rw [decide_eq_decide] at hsame
    exact hsame

theorem sizeOf_eq_some {text : Text} {size : Option (Option Nat)} :
    sizeOf text = some size ↔ Names "SIZE" text ∧ size = some (limitOf text) := by
  rw [← names_iff (by decide)]
  unfold sizeOf
  split_ifs with hsize
  · rw [Option.some.injEq]
    simp only [hsize, true_and]
    exact eq_comm
  · simp [hsize]

theorem sizesAgree_iff : SizesAgree lines ↔ Agree sizeOf (texts lines) := by
  unfold SizesAgree Agree
  constructor
  · intro h text hmem other hmem' v w hv hw
    obtain ⟨hsize, rfl⟩ := sizeOf_eq_some.1 hv
    obtain ⟨hsize', rfl⟩ := sizeOf_eq_some.1 hw
    rw [h text hmem other hmem' hsize hsize']
  · intro h text hmem other hmem' hsize hsize'
    exact Option.some.inj (h text hmem other hmem' _ _ (sizeOf_eq_some.2 ⟨hsize, rfl⟩)
      (sizeOf_eq_some.2 ⟨hsize', rfl⟩))

/-- A reply gives what is captured of its lines. -/
theorem gives_of_listing (h : WellFormedReply 250 lines)
    (hlisting : listing true 250 {} lines.tail = some captured) : Gives deadline lines captured := by
  intro wire rest hbytes
  have hreply : ReplyOf true 64 true none 0 {} lines ⟨250, captured⟩ :=
    replyOf_start_iff.2 ⟨h, hlisting⟩
  obtain ⟨after, hdone, -⟩ := @ReplyOf.play wire deadline _ _ _ _ _ _ _ _ hreply rest hbytes
  exact ⟨after, hdone⟩

theorem Gives.eq (h : Gives deadline lines capabilities) (h' : Gives deadline lines captured) :
    capabilities = captured := by
  have hbytes : (⟨[onStream lines], .closed, 0, false⟩ : Wire).bytes = onStream lines ++ [] := rfl
  obtain ⟨after, hplay⟩ := h _ _ hbytes
  obtain ⟨after', hplay'⟩ := h' _ _ hbytes
  have hreply := (Prod.mk.inj (hplay.symm.trans hplay')).1
  cases hreply
  rfl

/-- Whether the sizes can be read does not depend on the order. -/
theorem readable_iff : (listing true 250 {} lines.tail).isSome ↔
    ∀ text ∈ texts lines, ∀ keyword value others, asciiWords text = keyword :: value :: others →
      uppercase keyword = ascii "SIZE" → (parseU64 value).isSome := by
  rw [sizesReadable_iff]
  unfold SizesReadable texts
  simp only [true_imp_iff, List.forall_mem_map]

theorem exists_listing (hreadable : SizesReadable lines)
    (hsame : ∀ text, text ∈ texts lines' ↔ text ∈ texts lines) :
    ∃ captured, listing true 250 {} lines'.tail = some captured := by
  apply Option.isSome_iff_exists.1
  have hold := readable_iff.1 (sizesReadable_iff.2 fun _ _ => hreadable)
  exact readable_iff.2 fun text hmem => hold text ((hsame text).1 hmem)

theorem mem_exchanged {first middle last : List Text} {x y text : Text} :
    text ∈ first ++ y :: (middle ++ x :: last) ↔ text ∈ first ++ x :: (middle ++ y :: last) := by
  simp only [List.mem_append, List.mem_cons]
  tauto

/-- Where all AUTH lines agree, one that offers PLAIN decides. -/
theorem plain_of_agree {list : List Text} (h : Agree plainOf list) :
    latest plainOf false list = true ↔ ∃ text ∈ list, OffersPlain text := by
  constructor
  · intro htrue
    by_cases hassigned : ∃ text ∈ list, (plainOf text).isSome
    · obtain ⟨text, hmem, hsome⟩ := hassigned
      obtain ⟨b, hb⟩ := Option.isSome_iff_exists.1 hsome
      rw [h.latest_eq hmem hb] at htrue
      exact ⟨text, hmem, (plainOf_eq_some.1 hb).2.1 htrue⟩
    · rw [latest_of_none] at htrue
      · cases htrue
      · intro text hmem
        by_contra hassigns
        exact hassigned ⟨text, hmem, Option.isSome_iff_ne_none.2 hassigns⟩
  · rintro ⟨text, hmem, hoffers⟩
    exact h.latest_eq hmem (plainOf_eq_some_true.2 hoffers)

/-- Where AUTH lines and SIZE lines agree among themselves, only the set of the lines counts. -/
theorem captured_same (hauth : AuthAgrees lines) (hsizes : SizesAgree lines)
    (hlisting : listing true 250 {} lines.tail = some capabilities)
    (hlisting' : listing true 250 {} lines'.tail = some captured)
    (hsame : ∀ text, text ∈ texts lines' ↔ text ∈ texts lines) : captured = capabilities := by
  obtain ⟨hpipelining, hstarttls, heightBit, hplain, hsize⟩ := listing_captured hlisting
  obtain ⟨hpipelining', hstarttls', heightBit', hplain', hsize'⟩ := listing_captured hlisting'
  have hset : ∀ {p : Text → Prop}, (∃ text ∈ texts lines', p text) ↔ ∃ text ∈ texts lines, p text := by
    intro p
    simp only [hsame]
  have hone : captured.pipelining = capabilities.pipelining := by
    rw [Bool.eq_iff_iff, hpipelining', hset, hpipelining]
  have htwo : captured.starttls = capabilities.starttls := by
    rw [Bool.eq_iff_iff, hstarttls', hset, hstarttls]
  have hthree : captured.eightBit = capabilities.eightBit := by
    rw [Bool.eq_iff_iff, heightBit', hset, heightBit]
  have hfour : captured.plain = capabilities.plain := by
    rw [hplain', hplain, (authAgrees_iff.1 hauth).congr hsame]
  have hfive : captured.size = capabilities.size := by
    rw [hsize', hsize, (sizesAgree_iff.1 hsizes).congr hsame]
  cases captured
  cases capabilities
  simp only [Capabilities.mk.injEq]
  exact ⟨hone, htwo, hthree, hfour, hfive⟩

/-- Two lines that say something, exchanged, change nothing of what is captured in order-free replies. -/
theorem OrderFree.exchange (h : OrderFree deadline lines capabilities)
    (hformed : WellFormedReply 250 lines) (hreadable : SizesReadable lines)
    (hlisting : listing true 250 {} lines.tail = some capabilities) {first middle last : List Text}
    {x y : Text} (htexts : texts lines = first ++ x :: (middle ++ y :: last)) (hx : x ≠ [])
    (hy : y ≠ []) :
    latest plainOf false (first ++ y :: (middle ++ x :: last)) = latest plainOf false (texts lines)
      ∧ latest sizeOf none (first ++ y :: (middle ++ x :: last))
        = latest sizeOf none (texts lines) := by
  obtain ⟨-, -, -, hplain, hsize⟩ := listing_captured hlisting
  obtain ⟨lines', hformed', htexts'⟩ := exists_exchanged hformed htexts hx hy
  have hsame : ∀ text, text ∈ texts lines' ↔ text ∈ texts lines := by
    intro text
    rw [htexts', htexts]
    exact mem_exchanged
  obtain ⟨captured, hlisting'⟩ := exists_listing hreadable hsame
  obtain rfl := (h.same lines' hformed' hsame).eq (gives_of_listing hformed' hlisting')
  obtain ⟨-, -, -, hplain', hsize'⟩ := listing_captured hlisting'
  rw [htexts'] at hplain' hsize'
  exact ⟨hplain'.symm.trans hplain, hsize'.symm.trans hsize⟩

theorem ne_nil_of_plainOf {text : Text} (h : (plainOf text).isSome) : text ≠ [] := by
  obtain ⟨b, hb⟩ := Option.isSome_iff_exists.1 h
  exact ne_nil_of_names ((names_iff (by decide)).2 (plainOf_eq_some.1 hb).1) (by decide)

theorem ne_nil_of_sizeOf {text : Text} (h : (sizeOf text).isSome) : text ≠ [] := by
  obtain ⟨size, hsize⟩ := Option.isSome_iff_exists.1 h
  exact ne_nil_of_names ((names_iff (by decide)).2 (sizeOf_eq_some.1 hsize).1) (by decide)

/-- **The order of the lines counts where AUTH lines or SIZE lines differ, and nowhere else.** -/
theorem capabilities_by_order (deadline : Deadline) (lines : List Text)
    (hformed : WellFormedReply 250 lines) (hreadable : SizesReadable lines) :
    ∃ capabilities, Gives deadline lines capabilities
      ∧ (OrderFree deadline lines capabilities ↔ AuthAgrees lines ∧ SizesAgree lines) := by
  obtain ⟨capabilities, hlisting⟩ := exists_listing hreadable fun _ => Iff.rfl
  obtain ⟨hpipelining, hstarttls, heightBit, hplain, -⟩ := listing_captured hlisting
  refine ⟨capabilities, gives_of_listing hformed hlisting, ?_⟩
  constructor
  · intro hfree
    constructor
    · rw [authAgrees_iff]
      apply agree_of_exchange false
      intro first x middle y last htexts hx hy
      exact (hfree.exchange hformed hreadable hlisting htexts (ne_nil_of_plainOf hx)
        (ne_nil_of_plainOf hy)).1
    · rw [sizesAgree_iff]
      apply agree_of_exchange none
      intro first x middle y last htexts hx hy
      exact (hfree.exchange hformed hreadable hlisting htexts (ne_nil_of_sizeOf hx)
        (ne_nil_of_sizeOf hy)).2
  · rintro ⟨hauth, hsizes⟩
    refine ⟨hpipelining, hstarttls, heightBit, ?_, ?_⟩
    · rw [hplain]
      exact plain_of_agree (authAgrees_iff.1 hauth)
    · intro lines' hformed' hsame
      obtain ⟨captured, hlisting'⟩ := exists_listing hreadable hsame
      rw [← captured_same hauth hsizes hlisting hlisting' hsame]
      exact gives_of_listing hformed' hlisting'

/-- One AUTH line and one SIZE line. -/
def oneAuthLine : List Text := [ascii "250-mx.a", ascii "250-AUTH PLAIN LOGIN", ascii "250 SIZE 10"]

theorem capabilities_by_order_one_auth :
    ∃ capabilities, Gives .command oneAuthLine capabilities
      ∧ OrderFree .command oneAuthLine capabilities := by
  have hformed : WellFormedReply 250 oneAuthLine := by
    refine ⟨⟨by decide, by decide, [ascii "250-mx.a", ascii "250-AUTH PLAIN LOGIN"],
      ascii "250 SIZE 10", rfl, ?_, by decide⟩, by decide, by decide, by decide, by decide +kernel⟩
    intro line hmem
    rcases List.mem_cons.1 hmem with rfl | hmem
    · decide
    · obtain rfl := List.mem_singleton.1 hmem
      decide
  have hreadable : SizesReadable oneAuthLine :=
    sizesReadable_iff.1 (by decide : (listing true 250 {} oneAuthLine.tail).isSome) rfl rfl
  have hauth : ∀ text ∈ texts oneAuthLine, Names "AUTH" text → text = ascii "AUTH PLAIN LOGIN" := by
    intro text hmem hnames
    rw [← names_iff (by decide)] at hnames
    revert text
    decide
  have hsize : ∀ text ∈ texts oneAuthLine, Names "SIZE" text → text = ascii "SIZE 10" := by
    intro text hmem hnames
    rw [← names_iff (by decide)] at hnames
    revert text
    decide
  obtain ⟨capabilities, hgives, hfree⟩ :=
    capabilities_by_order .command oneAuthLine hformed hreadable
  refine ⟨capabilities, hgives, hfree.2 ⟨?_, ?_⟩⟩
  · intro text hmem other hmem' hnames hnames'
    rw [hauth text hmem hnames, hauth other hmem' hnames']
  · intro text hmem other hmem' hnames hnames'
    rw [hsize text hmem hnames, hsize other hmem' hnames']

/-! ### A second AUTH line -/

/-- PLAIN is offered, and the line behind it lists another mechanism. -/
def twoAuthLines : List Text := [ascii "250-mx.a", ascii "250-AUTH PLAIN", ascii "250 AUTH LOGIN"]

theorem twoAuthLines_formed : WellFormedReply 250 twoAuthLines := by
  refine ⟨⟨by decide, by decide, [ascii "250-mx.a", ascii "250-AUTH PLAIN"], ascii "250 AUTH LOGIN",
    rfl, ?_, by decide⟩, by decide, by decide, by decide, by decide +kernel⟩
  intro line hmem
  rcases List.mem_cons.1 hmem with rfl | hmem
  · decide
  · obtain rfl := List.mem_singleton.1 hmem
    decide

/-- The PLAIN that is offered is not seen: with these lines no authentication is attempted. -/
theorem plain_hidden_by_second_auth :
    WellFormedReply 250 twoAuthLines ∧ (∃ text ∈ texts twoAuthLines, OffersPlain text)
      ∧ ∃ capabilities, (∀ deadline, Gives deadline twoAuthLines capabilities)
        ∧ capabilities.plain = false
        ∧ (∀ deadline, ¬ OrderFree deadline twoAuthLines capabilities)
        ∧ ∀ client : SmtpClient, client.authorization.isSome →
          client.authenticate capabilities = .failed .setup := by
  have hoffers : ∃ text ∈ texts twoAuthLines, OffersPlain text := by
    refine ⟨ascii "AUTH PLAIN", by decide, ascii "AUTH", [ascii "PLAIN"], by decide, by decide,
      ascii "PLAIN", by decide, by decide⟩
  have hlisting : listing true 250 {} twoAuthLines.tail = some {} := by decide
  refine ⟨twoAuthLines_formed, hoffers, {}, fun deadline => gives_of_listing twoAuthLines_formed hlisting,
    rfl, ?_, ?_⟩
  · intro deadline hfree
    exact Bool.false_ne_true (hfree.plain.2 hoffers)
  · intro client hauthorization
    obtain ⟨token, htoken⟩ := Option.isSome_iff_exists.1 hauthorization
    unfold SmtpClient.authenticate
    rw [htoken]
    rfl

end Order

end Rustymail.Client
