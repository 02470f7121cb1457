import Rustymail.Client.Authorization
import Rustymail.Lib.Base64
import Rustymail.Proof.Canonical
import Rustymail.Proof.Chunks
import Rustymail.Proof.CommandLemmas
import Rustymail.Proof.PlainText
import Rustymail.Proof.Transparency
import Rustymail.Server.Auth

/-!
# AUTH PLAIN on both sides

The client joins a login and a token with NUL bytes, the server cuts them apart again, and the tokens
that the server makes carry their selector in front of the first dot.
-/

namespace Rustymail.Server

open Checked

/-! ### Text -/

theorem validUtf8_of_ascii {text : Text} (h : ∀ b ∈ text, b < 128) : validUtf8 text = true := by
  unfold validUtf8
  rw [decide_eq_true_eq]
  induction text using List.reverseRecOn with
  | nil => exact ByteArray.isValidUTF8_empty
  | append_singleton text b ih =>
      have hb : b.toNat < 128 := h b (by simp)
      have hvalid := ih fun c hc => h c (List.mem_append_left _ hc)
      have hchar : (Char.ofUInt8 b).val ≤ 0x7f := by
        change b.toUInt32 ≤ 0x7f
        rw [UInt32.le_iff_toNat_le, UInt8.toNat_toUInt32]
        change b.toNat ≤ 127
        omega
      have hpush : (⟨(text ++ [b]).toArray⟩ : ByteArray)
          = ByteArray.push ⟨text.toArray⟩ (Char.ofUInt8 b).toUInt8 := by
        apply ByteArray.ext
        have hbyte : (Char.ofUInt8 b).toUInt8 = b := UInt8.toUInt8_toUInt32 b
        rw [hbyte]
        exact (List.push_toArray text b).symm
      rw [hpush]
      exact hvalid.push (if_pos hchar)

/-- An address has visible bytes only. -/
theorem visible_of_parse {text : Text} {address : Address} (h : Address.parse text = some address) :
    ∀ b ∈ text, 33 ≤ b ∧ b ≤ 126 :=
  fun _ hb => (accepted_bytes (accepts_of_parse h) hb).1

/-- A name that parses is UTF-8 already. -/
theorem validUtf8_of_parse {text : Text} {address : Address} (h : Address.parse text = some address) :
    validUtf8 text = true :=
  validUtf8_of_ascii fun b hb => UInt8.lt_of_le_of_lt (visible_of_parse h b hb).2 (by decide)

theorem length_of_parse {text : Text} {address : Address} (h : Address.parse text = some address) :
    text.length ≤ 254 := by
  have haccepts := accepts_of_parse h
  cases hcut : rsplitOnce 64 text with
  | none =>
      unfold Address.accepts at haccepts
      rw [hcut] at haccepts
      cases haccepts
  | some cut => exact ((Address.accepts_cut hcut).1 haccepts).1

/-! ### Cutting the fields -/

/-- The three fields of a message: an identity that may be left out, the name that logs in, and the
token. The identity is another spelling of the name. -/
structure PlainMessage (raw : Text) (login : Address) (token : Text) (identity name : Text) : Prop where
  cut : raw = identity ++ 0 :: (name ++ 0 :: token)
  identity_clean : 0 ∉ identity
  name_clean : 0 ∉ name
  token_clean : 0 ∉ token
  name_short : name.length ≤ 254
  token_short : token.length ≤ 128
  name_parses : Address.parse name = some login
  token_text : validUtf8 token = true
  same : identity = [] ∨ ∃ other, Address.parse identity = some other ∧ other.localKey = login.localKey

theorem checkAuthorization_eq_ok {login : Address} {identity : Text} :
    checkAuthorization login identity = .ok () ↔
      identity = [] ∨ ∃ other, Address.parse identity = some other ∧ other.localKey = login.localKey := by
  unfold checkAuthorization
  cases identity with
  | nil => exact iff_of_true rfl (Or.inl rfl)
  | cons b rest =>
      rw [if_neg (by simp)]
      simp only [bind_eq_ok, require_eq_ok, found_eq_ok]
      constructor
      · rintro ⟨_, -, other, hparse, hsame⟩
        exact Or.inr ⟨other, hparse, hsame⟩
      · rintro (hnil | ⟨other, hparse, hsame⟩)
        · cases hnil
        · exact ⟨(), validUtf8_of_parse hparse, other, hparse, hsame⟩

variable {base64 : Base64.Codec}

/-- A message is never too long for the encoded limit. -/
theorem PlainMessage.encoded_length {raw encoded : Text} {login : Address} {token identity name : Text}
    (h : PlainMessage raw login token identity name) (hdecode : base64.decode encoded = some raw) :
    encoded.length ≤ 1024 := by
  have hidentity : identity.length ≤ 254 := by
    rcases h.same with rfl | ⟨other, hparse, -⟩
    · exact Nat.zero_le 254
    · exact length_of_parse hparse
  have hlength : raw.length = identity.length + (name.length + (token.length + 1) + 1) := by
    rw [h.cut, List.length_append, List.length_cons, List.length_append, List.length_cons]
  have hname := h.name_short
  have htoken := h.token_short
  rw [base64.length_of_decode encoded raw hdecode]
  omega

/-- **What `decode_plain` accepts.** -/
theorem decodePlain_eq_ok_iff {encoded : Text} {login : Address} {token : Text} :
    decodePlain base64.decode encoded = .ok ⟨login, token⟩ ↔
      ∃ raw identity name, base64.decode encoded = some raw
        ∧ PlainMessage raw login token identity name := by
  unfold decodePlain
  simp only [bind_eq_ok, require_eq_ok, found_eq_ok]
  constructor
  · rintro ⟨_, -, raw, hdecode, h⟩
    split at h
    · next identity name token' hsplit =>
        simp only [bind_eq_ok, require_eq_ok, found_eq_ok, pure_eq_ok] at h
        obtain ⟨_, hshort, _, -, login', hparse, _, hsame, _, htext, heq⟩ := h
        cases heq
        obtain ⟨hcut, hidentity, hname, htoken⟩ := Words.splitOn_eq_three_iff.1 hsplit
        exact ⟨raw, identity, name, hdecode, hcut, hidentity, hname, htoken, hshort.1, hshort.2, hparse,
          htext, checkAuthorization_eq_ok.1 hsame⟩
    · cases h
  · rintro ⟨raw, identity, name, hdecode, h⟩
    refine ⟨(), h.encoded_length hdecode, raw, hdecode, ?_⟩
    rw [Words.splitOn_eq_three_iff.2 ⟨h.cut, h.identity_clean, h.name_clean, h.token_clean⟩]
    simp only [bind_eq_ok, require_eq_ok, found_eq_ok, pure_eq_ok]
    exact ⟨(), ⟨h.name_short, h.token_short⟩, (), validUtf8_of_parse h.name_parses, login,
      h.name_parses, (), checkAuthorization_eq_ok.2 h.same, (), h.token_text, rfl⟩

/-! ### What the client sends -/

/-- The message of a login and a token. -/
theorem plainMessage (login : Address) {token : Text} (htext : validUtf8 token = true)
    (hshort : token.length ≤ 128) (hclean : 0 ∉ token) :
    PlainMessage (Client.plainResponse login.asStr token) login token [] login.asStr where
  cut := by
    unfold Client.plainResponse
    simp
  identity_clean := List.not_mem_nil
  name_clean := by
    intro hmem
    exact absurd (visible_of_parse (Address.parse_asStr login) 0 hmem).1 (by decide)
  token_clean := hclean
  name_short := address_length login
  token_short := hshort
  name_parses := Address.parse_asStr login
  token_text := htext
  same := Or.inl rfl

theorem encode_length {raw : Text} {login : Address} {token identity name : Text}
    (h : PlainMessage raw login token identity name) (hnone : identity = []) :
    (base64.encode raw).length ≤ 512 := by
  have hlength : raw.length = identity.length + (name.length + (token.length + 1) + 1) := by
    rw [h.cut, List.length_append, List.length_cons, List.length_append, List.length_cons]
  have hname := h.name_short
  have htoken := h.token_short
  rw [hnone, List.length_nil] at hlength
  rw [base64.length_encode]
  omega

theorem clean_encode (raw : Text) : Framing.Clean (base64.encode raw) := by
  refine ⟨fun hmem => ?_, fun hmem => ?_, fun hmem => ?_⟩
  · exact absurd (base64.symbol_encode raw 0 hmem) (by decide)
  · exact absurd (base64.symbol_encode raw cr hmem) (by decide)
  · exact absurd (base64.symbol_encode raw lf hmem) (by decide)

/-! ### What the server reads -/

namespace Reader

variable {reader : Reader} {line more : Text}

/-- A line within the limit is read, in whatever pieces it arrives. -/
theorem line_takes {limit : Nat} (hclean : Framing.Clean line) (hroom : line.length + 2 ≤ limit)
    (hbytes : reader.bytes = line ++ crlf ++ more) :
    ∃ after, reader.line limit = .ok (some line, after) ∧ after.bytes = more := by
  have hfeed : (LineDecoder.new limit).feedBuffered (line ++ crlf ++ more)
      = .ok (⟨line ++ crlf, limit, true⟩, more) :=
    @feedBuffered_rest line [] _ more limit hclean rfl (by simp [crlf]) hroom
  have hwhole : filled (fillLine (.new limit) reader.pieces)
      = .ok (⟨line ++ crlf, limit, true⟩, more, true) := by
    rw [fillLine_whole rfl]
    change fillWhole _ reader.bytes = _
    unfold fillWhole
    rw [hbytes, hfeed]
    rfl
  unfold Reader.line
  cases hfill : fillLine (.new limit) reader.pieces with
  | error e =>
      rw [hfill] at hwhole
      cases hwhole
  | ok result =>
      obtain ⟨decoder, left, complete⟩ := result
      rw [hfill] at hwhole
      obtain ⟨hdecoder, hrest⟩ := Prod.mk.inj (Except.ok.inj hwhole)
      obtain ⟨hleft, hcomplete⟩ := Prod.mk.inj hrest
      have htake : (⟨line ++ crlf, limit, true⟩ : LineDecoder).takeLine.2 = some line := by
        change some ((line ++ crlf).take ((line ++ crlf).length - 2)) = some line
        rw [List.length_append]
        simp [crlf]
      rw [hdecoder, hcomplete]
      dsimp only
      rw [htake]
      exact ⟨rest left, rfl, (bytes_rest left).trans hleft⟩

end Reader

/-- The connection is in a state in which AUTH is taken. -/
structure Connection.Ready (context : SessionContext) (connection : Connection) : Prop where
  submission : context.role.submission = true
  encrypted : connection.encrypted = true
  auth : context.auth = true
  anonymous : connection.principal = none
  allowed : connection.session.authenticationAllowed = true

namespace Connection

variable {context : SessionContext} {connection : Connection} {input : RoundInput} {bytes : Text}

/-- A line that begins with AUTH goes to the dialogue, if it fits. -/
theorem round_auth (hready : connection.Ready context) (hroom : bytes.length + 2 ≤ 1024)
    (hverb : verbOf bytes = ascii "AUTH") :
    (connection.round context input (.line bytes)).effects
      = (connection.authenticate input bytes).effects := by
  have hread : context.readLimit = 1024 := if_pos hready.auth
  have hsame : eqIgnoreAsciiCase (verbOf bytes) (ascii "AUTH") = true := by
    rw [hverb]
    decide
  have hlimit : lineLimit context.role (verbOf bytes) = 1024 :=
    if_pos (by rw [hsame, hready.submission]; rfl)
  change (if context.readLimit < bytes.length + 2 then _ else _ : Outcome).effects = _
  rw [hread, if_neg (Nat.not_lt.2 hroom)]
  unfold line
  rw [hlimit, if_neg (Nat.not_lt.2 hroom), if_pos hsame]
  unfold auth
  rw [if_neg (by rw [hready.submission]; decide), if_neg (by rw [hready.encrypted]; decide),
    if_neg (by rw [hready.auth]; decide), if_neg]
  rw [hready.anonymous, hready.allowed]
  decide

theorem credentials_effects {encoded : Text} (h : encoded ≠ ascii "*") :
    ∃ later, (connection.credentials input encoded).effects = .decode encoded :: later := by
  unfold credentials
  rw [if_neg h]
  exact ⟨_, rfl⟩

theorem authenticate_inline {encoded : Text} (hspace : 32 ∉ encoded) :
    connection.authenticate input (ascii "AUTH PLAIN " ++ encoded)
      = connection.credentials input encoded := by
  have hsplit : (ascii "AUTH PLAIN " ++ encoded).splitOn 32 = [ascii "AUTH", ascii "PLAIN", encoded] :=
    Words.splitOn_eq_three_iff.2 ⟨rfl, by decide, by decide, hspace⟩
  unfold authenticate
  rw [hsplit]
  exact if_pos (by decide)

theorem authenticate_challenge {encoded : Text} (hresponse : input.response = some encoded) :
    connection.authenticate input (ascii "AUTH PLAIN")
      = .after .challenge (connection.credentials input encoded) := by
  have hsplit : (ascii "AUTH PLAIN").splitOn 32 = [ascii "AUTH", ascii "PLAIN"] := by decide
  unfold authenticate
  rw [hsplit]
  change (if _ then _ else _) = _
  rw [if_pos (by decide), hresponse]

end Connection

/-- The server takes a response inline and behind its challenge: both lines fit, and it is decoded as
it is. -/
structure Arrives (response : Text) : Prop where
  inline : ∀ (reader : Reader) (more : Text),
    reader.bytes = ascii "AUTH PLAIN " ++ response ++ crlf ++ more →
    ∃ after, reader.line 1024 = .ok (some (ascii "AUTH PLAIN " ++ response), after)
      ∧ after.bytes = more
  answer : ∀ (reader : Reader) (more : Text), reader.bytes = response ++ crlf ++ more →
    ∃ after, reader.response true = (some response, after) ∧ after.bytes = more
  decoded_inline : ∀ (context : SessionContext) (connection : Connection) (input : RoundInput),
    connection.Ready context → ∃ later,
      (connection.round context input (.line (ascii "AUTH PLAIN " ++ response))).effects
        = .decode response :: later
  decoded_answer : ∀ (context : SessionContext) (connection : Connection) (input : RoundInput),
    connection.Ready context → input.response = some response → ∃ later,
      (connection.round context input (.line (ascii "AUTH PLAIN"))).effects
        = .challenge :: .decode response :: later

theorem Arrives.of_clean {response : Text} (hclean : Framing.Clean response) (hspace : 32 ∉ response)
    (hstar : response ≠ ascii "*") (hlength : response.length ≤ 1011) : Arrives response where
  inline := by
    intro reader more hbytes
    refine Reader.line_takes ?_ ?_ hbytes
    · have hcommand : Framing.Clean (ascii "AUTH PLAIN ") := ⟨by decide, by decide, by decide⟩
      exact ⟨List.not_mem_append hcommand.1 hclean.1, List.not_mem_append hcommand.2.1 hclean.2.1,
        List.not_mem_append hcommand.2.2 hclean.2.2⟩
    · rw [List.length_append]
      change 11 + response.length + 2 ≤ 1024
      omega
  answer := by
    intro reader more hbytes
    obtain ⟨after, hline, hafter⟩ := @Reader.line_takes _ _ _ 1024 hclean (by omega) hbytes
    refine ⟨after, ?_, hafter⟩
    unfold Reader.response
    rw [if_pos rfl, hline]
  decoded_inline := by
    intro context connection input hready
    rw [Connection.round_auth hready]
    · rw [Connection.authenticate_inline hspace]
      exact Connection.credentials_effects hstar
    · rw [List.length_append]
      change 11 + response.length + 2 ≤ 1024
      omega
    · rfl
  decoded_answer := by
    intro context connection input hready hresponse
    rw [Connection.round_auth hready (by decide) (by decide),
      Connection.authenticate_challenge hresponse]
    obtain ⟨later, hlater⟩ := @Connection.credentials_effects connection input _ hstar
    exact ⟨later, congrArg (Effect.challenge :: ·) hlater⟩

theorem Arrives.encode {raw : Text} (hlength : (base64.encode raw).length ≤ 512) :
    Arrives (base64.encode raw) := by
  apply Arrives.of_clean (clean_encode raw)
  · intro hmem
    exact absurd (base64.symbol_encode raw 32 hmem) (by decide)
  · intro hstar
    exact absurd (base64.symbol_encode raw 42 (by rw [hstar]; decide)) (by decide)
  · omega

/-! ### What the client loads -/

theorem loadAuthorization_some {encode : Text → Text} {username response : Text}
    {material : Except String Text}
    (h : Client.loadAuthorization encode username material = .ok (some response)) :
    ∃ contents, material = .ok contents
      ∧ response = encode (Client.plainResponse username (Client.stripEnding contents)) := by
  unfold Client.loadAuthorization at h
  split_ifs at h
  · cases h
  · simp only [bind_eq_ok, require_eq_ok, pure_eq_ok] at h
    obtain ⟨_, -, contents, hmaterial, _, -, hresponse⟩ := h
    exact ⟨contents, hmaterial, (Option.some.inj hresponse).symm⟩

/-- A line ending after the secret is no part of it. -/
theorem stripEnding_append {token ending : Text} (hclean : token.any isAsciiControl = false)
    (hending : ending ∈ [[], [10], [13, 10]]) : Client.stripEnding (token ++ ending) = token := by
  rw [List.any_eq_false] at hclean
  have hcr : 13 ∉ token := fun hmem => hclean 13 hmem (by decide)
  have hlf : 10 ∉ token := fun hmem => hclean 10 hmem (by decide)
  unfold Client.stripEnding
  rw [if_congr List.isSuffixOf_iff_suffix rfl (if_congr List.isSuffixOf_iff_suffix rfl rfl)]
  simp only [List.mem_cons, List.not_mem_nil, or_false] at hending
  rcases hending with rfl | rfl | rfl
  · rw [List.append_nil, if_neg (fun h => hlf (h.subset (by simp))),
      if_neg (fun h => hlf (h.subset (by simp)))]
  · rw [if_neg, if_pos (List.suffix_append token [10])]
    · simp
    · intro h
      obtain ⟨before, hbefore⟩ := h
      have hcut : (before ++ [13]) ++ [10] = token ++ [10] := by simpa using hbefore
      exact hcr (List.append_cancel_right hcut ▸ by simp)
  · rw [if_pos (List.suffix_append token [13, 10])]
    simp

theorem loadAuthorization_token {encode : Text → Text} (login : Address) {token ending : Text}
    (hsome : token ≠ []) (hclean : token.any isAsciiControl = false)
    (hending : ending ∈ [[], [10], [13, 10]]) :
    Client.loadAuthorization encode login.asStr (.ok (token ++ ending))
      = .ok (some (encode (Client.plainResponse login.asStr token))) := by
  have hlength := address_length login
  have hname : login.asStr ≠ [] := login.text_ne_nil
  have hvisible : login.asStr.any isAsciiControl = false := by
    rw [List.any_eq_false]
    intro b hb
    obtain ⟨hlow, hhigh⟩ := visible_of_parse (Address.parse_asStr login) b hb
    unfold isAsciiControl
    rw [Bool.or_eq_true, decide_eq_true_eq, beq_iff_eq, not_or]
    constructor
    · exact UInt8.not_lt.2 (UInt8.le_trans (by decide) hlow)
    · rintro rfl
      exact absurd hhigh (by decide)
  unfold Client.loadAuthorization
  rw [if_neg (by simpa using hname), require_of ⟨by omega, hvisible⟩, bind_ok, bind_ok]
  dsimp only
  rw [stripEnding_append hclean hending, require_of ⟨hsome, hclean⟩, bind_ok]
  rfl

/-! ### Generated tokens -/

theorem hexDigit_hex {n : Nat} (h : n < 16) :
    (isAsciiDigit (hexDigit n) || (97 ≤ hexDigit n && hexDigit n ≤ 102)) = true := by
  have hall : ∀ k < 16, (isAsciiDigit (hexDigit k) || (97 ≤ hexDigit k && hexDigit k ≤ 102)) = true := by
    decide +kernel
  exact hall n h

theorem randomHex_hex (raw : List UInt8) :
    ∀ b ∈ randomHex raw, (isAsciiDigit b || (97 ≤ b && b ≤ 102)) = true := by
  intro b hb
  obtain ⟨byte, -, hdigit⟩ := List.mem_flatMap.1 hb
  have hbyte := byte.toNat_lt
  simp only [List.mem_cons, List.not_mem_nil, or_false] at hdigit
  rcases hdigit with rfl | rfl
  · exact hexDigit_hex (by omega)
  · exact hexDigit_hex (by omega)

theorem randomHex_length (raw : List UInt8) : (randomHex raw).length = 2 * raw.length := by
  unfold randomHex
  induction raw with
  | nil => rfl
  | cons b rest ih =>
      rw [List.flatMap_cons, List.length_append, ih, List.length_cons]
      change 2 + 2 * rest.length = 2 * (rest.length + 1)
      omega

/-- A made token: the stored selector, a dot, and as much again twice. -/
structure Issued (selector token : Text) : Prop where
  selector_valid : validId selector = true
  selector_found : selectorOf token = selector
  visible : ∀ b ∈ token, 33 ≤ b ∧ b ≤ 126
  length : token.length = 97

theorem generateCredential_issues {first : Except AuthError (Vector UInt8 16)}
    {second : Except AuthError (Vector UInt8 32)} {hashToken : Text → Except AuthError Text}
    {selector token phc : Text}
    (h : generateCredential first second hashToken = .ok (selector, token, phc)) :
    Issued selector token := by
  unfold generateCredential at h
  simp only [bind_eq_ok, pure_eq_ok] at h
  obtain ⟨first, -, second, -, phc', -, heq⟩ := h
  cases heq
  have hselector := randomHex_hex first.toList
  have hlength := randomHex_length first.toList
  have hmore := randomHex_length second.toList
  rw [Vector.length_toList] at hlength hmore
  have hvisible : ∀ b : UInt8, (isAsciiDigit b || (97 ≤ b && b ≤ 102)) = true → 33 ≤ b ∧ b ≤ 126 := by
    intro b hb
    unfold isAsciiDigit at hb
    simp only [Bool.or_eq_true, Bool.and_eq_true, decide_eq_true_eq] at hb
    rcases hb with ⟨hlow, hhigh⟩ | ⟨hlow, hhigh⟩
    · exact ⟨UInt8.le_trans (by decide) hlow, UInt8.le_trans hhigh (by decide)⟩
    · exact ⟨UInt8.le_trans (by decide) hlow, UInt8.le_trans hhigh (by decide)⟩
  have hdot : (46 : UInt8) ∉ randomHex first.toList := fun hmem =>
    absurd (hselector 46 hmem) (by decide)
  refine ⟨?_, ?_, ?_, ?_⟩
  · unfold validId
    rw [hlength, List.all_eq_true.2 hselector]
    rfl
  · unfold selectorOf
    rw [splitOnce_eq_some_iff.2 ⟨rfl, hdot⟩]
    rfl
  · intro b hb
    rcases List.mem_append.1 hb with hfirst | hrest
    · exact hvisible b (hselector b hfirst)
    · rcases List.mem_cons.1 hrest with rfl | hlater
      · decide
      · exact hvisible b (randomHex_hex second.toList b hlater)
  · rw [List.length_append, List.length_cons, hlength, hmore]

/-- A credential that was created is found under its selector. -/
theorem createCredential_stores {store after : Store} {login : Address} {selector : Text}
    {label : String} {scope : Scope} {phc : Text} {reading : Reading} {id : Nat}
    (h : createCredential store login selector label scope phc reading = (after, .ok id)) :
    ∃ row, after.db.credentialBySelector? selector = some row ∧ row.id = id
      ∧ row.selector = selector := by
  unfold createCredential at h
  split_ifs at h
  · cases hlogin : store.db.accountByLogin? login.localKey with
    | none =>
        rw [hlogin] at h
        cases h
    | some account =>
        rw [hlogin] at h
        dsimp only at h
        split_ifs at h
        · cases h
        cases hnow : reading.nowMs with
        | error e =>
            rw [hnow] at h
            cases h
        | ok now =>
            rw [hnow] at h
            dsimp only at h
            split at h
            · cases h
            · next db hinsert =>
                obtain ⟨⟨-, hfresh, -⟩, rfl⟩ := Db.insertCredential_eq_ok.1 hinsert
                cases h
                exact ⟨_, (Keyed.lookup_append_singleton hfresh).trans (if_pos rfl), rfl, rfl⟩
  · cases h

/-- **Both sides of AUTH PLAIN.** -/
theorem auth_plain_agrees (base64 : Base64.Codec) :
    (∀ (login : Address) (token : Text), validUtf8 token = true → token.length ≤ 128 → 0 ∉ token →
      Arrives (base64.encode (Client.plainResponse login.asStr token))
        ∧ decodePlain base64.decode (base64.encode (Client.plainResponse login.asStr token))
          = .ok ⟨login, token⟩)
      ∧ (∀ (username response : Text) (material : Except String Text),
        Client.loadAuthorization base64.encode username material = .ok (some response) →
        ∃ contents, material = .ok contents
          ∧ response = base64.encode (Client.plainResponse username (Client.stripEnding contents)))
      ∧ (∀ (login : Address) (token ending : Text), token ≠ [] → token.any isAsciiControl = false →
        ending ∈ [[], [10], [13, 10]] →
        Client.loadAuthorization base64.encode login.asStr (.ok (token ++ ending))
          = .ok (some (base64.encode (Client.plainResponse login.asStr token))))
      ∧ (∀ (encoded : Text) (login : Address) (token : Text),
        decodePlain base64.decode encoded = .ok ⟨login, token⟩ ↔
          ∃ raw identity name, base64.decode encoded = some raw
            ∧ PlainMessage raw login token identity name)
      ∧ ∀ (first : Except AuthError (Vector UInt8 16)) (second : Except AuthError (Vector UInt8 32))
        (hashToken : Text → Except AuthError Text) (selector token phc : Text),
        generateCredential first second hashToken = .ok (selector, token, phc) →
        Issued selector token
          ∧ ∀ (store after : Store) (login : Address) (label : String) (scope : Scope)
            (reading : Reading) (id : Nat),
            createCredential store login selector label scope phc reading = (after, .ok id) →
            ∃ row, after.db.credentialBySelector? (selectorOf token) = some row ∧ row.id = id := by
  refine ⟨?_, fun _ _ _ => loadAuthorization_some, fun login _ _ => loadAuthorization_token login,
    fun _ _ _ => decodePlain_eq_ok_iff, ?_⟩
  · intro login token htext hshort hclean
    have hmessage := plainMessage login htext hshort hclean
    exact ⟨.encode (encode_length hmessage rfl),
      decodePlain_eq_ok_iff.2 ⟨_, _, _, base64.decode_encode _, hmessage⟩⟩
  · intro first second hashToken selector token phc h
    have hissued := generateCredential_issues h
    refine ⟨hissued, ?_⟩
    intro store after login label scope reading id hcreate
    obtain ⟨row, hrow, hid, -⟩ := createCredential_stores hcreate
    rw [hissued.selector_found]
    exact ⟨row, hrow, hid⟩

namespace Sample

def user : Address := ⟨ascii "alice@example.com", by decide +kernel, by decide +kernel⟩

end Sample

/-- A login and its secret, in the response that goes over the wire. -/
theorem auth_plain_agrees_secret :
    Arrives (ascii "AGFsaWNlQGV4YW1wbGUuY29tAHNlY3JldA==")
      ∧ decodePlain Base64.decode (ascii "AGFsaWNlQGV4YW1wbGUuY29tAHNlY3JldA==")
        = .ok ⟨Sample.user, ascii "secret"⟩ := by
  have hencode : Base64.encode (Client.plainResponse Sample.user.asStr (ascii "secret"))
      = ascii "AGFsaWNlQGV4YW1wbGUuY29tAHNlY3JldA==" := by decide +kernel
  have hagrees := (auth_plain_agrees Base64.standard).1 Sample.user (ascii "secret")
    (validUtf8_of_ascii (by decide +kernel)) (by decide) (by decide)
  change Arrives (Base64.encode _) ∧ decodePlain Base64.decode (Base64.encode _) = _ at hagrees
  rwa [hencode] at hagrees

end Rustymail.Server
