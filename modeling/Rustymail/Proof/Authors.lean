import Rustymail.Proof.ExactInput

/-!
# The author of a submission

The filter and the author check go through the same lines one by one; together they accept exactly the
headers whose fields name one author and nobody else.
-/

namespace Rustymail

open Server

variable {lines : List Text} {author : Address}

theorem keeps_submission (line : Text) : HeaderFilter.keeps true line
    = !(named "Return-Path" line || named "Bcc" line || named "Resent-Bcc" line) := by
  unfold HeaderFilter.keeps
  rw [Bool.true_and, Bool.or_assoc]

/-- What the check allows of every field. -/
theorem allowed_iff : (∀ field ∈ fields lines, ∀ line ∈ field.head?, SubmissionHeaders.Allowed line)
    ↔ PlainNames lines ∧ ∀ field ∈ fields lines, field.head?.any namesSender = false := by
  have halone : ∀ field : List Text, field.head?.any namesSender = false
      ↔ ∀ line ∈ field.head?, namesSender line = false := by
    intro field
    cases field.head? with
    | none =>
        refine ⟨?_, fun _ => rfl⟩
        intro _ line hmem
        cases hmem
    | some line =>
        refine ⟨?_, fun h => h line rfl⟩
        rintro h other ⟨⟩
        exact h
  unfold PlainNames SubmissionHeaders.Allowed
  constructor
  · intro h
    exact ⟨fun field hfield line hline => (h field hfield line hline).1,
      fun field hfield => (halone field).2 fun line hline => (h field hfield line hline).2⟩
  · rintro ⟨hplain, hnone⟩ field hfield line hline
    exact ⟨hplain field hfield line hline, (halone field).1 (hnone field hfield) line hline⟩

/-- The author check on a header that the filter has let through. -/
theorem identities_iff (h : WellFormedHeader lines) :
    (∃ identities, SubmissionHeaders.lines {} (lines.map (· ++ crlf)) = some identities
        ∧ identities.author = some author)
      ↔ NamesAuthor lines author ∧ PlainNames lines := by
  have hfit : ∀ line ∈ lines, HeaderFilter.Fits true line := fun line hmem =>
    ⟨h.printable line hmem, fun _ => rfl, h.begins line hmem⟩
  rw [SubmissionHeaders.lines_iff hfit, allowed_iff]
  constructor
  · rintro ⟨-, ⟨hplain, halone⟩, hfroms⟩
    obtain ⟨-, line, found, hone, hvalue, hauthor⟩ := hfroms.resolve_left (by rintro ⟨-, h⟩; cases h)
    cases hauthor
    exact ⟨⟨⟨line, hone, hvalue⟩, halone⟩, hplain⟩
  · rintro ⟨⟨⟨line, hone, hvalue⟩, halone⟩, hplain⟩
    refine ⟨?_, ⟨hplain, halone⟩, Or.inr ⟨rfl, line, author, hone, hvalue, rfl⟩⟩
    intro hfield
    cases hfield

/-- **The author of a submission.** Lines go through the filter of a submission and through the author
check, with this author at the end, exactly if the filter accepts them, their fields name the author
and no other sender, and the field names are plain. What the filter then keeps is all but the fields
Return-Path, Bcc and Resent-Bcc. So it is with every message that `receive_message` accepts as a
submission: the author it returns is the one its header names, and what it stores of the header is
without those fields. -/
theorem submission_names_author :
    (∀ (lines : List Text) (author : Address),
      (∃ filter kept identities,
          HeaderFilter.submission.retainAll (lines.map (· ++ crlf)) = some (filter, kept)
            ∧ SubmissionHeaders.lines {} (lines.map (· ++ crlf)) = some identities
            ∧ identities.author = some author)
        ↔ (HeaderFilter.submission.retainAll (lines.map (· ++ crlf))).isSome
          ∧ NamesAuthor lines author ∧ PlainNames lines)
      ∧ (∀ (lines : List Text) (filter : HeaderFilter) (kept : List Text),
        HeaderFilter.submission.retainAll (lines.map (· ++ crlf)) = some (filter, kept) →
        kept = ((fields lines).filter fun field => field.head?.any fun line =>
          !(named "Return-Path" line || named "Bcc" line || named "Resent-Bcc" line)).flatten.map
            (· ++ crlf))
      ∧ ∀ (limits : ReceiveLimits) (faults : ReceiveFaults) (body : Body) (tracePrefix root : Text)
          (id : Uuid) (bufferLimit : Nat) (limited : limits.messageBytes + 2048 ≤ maxStoredBytes)
          (pieces : List Text) (stage : StagedMessage) (author : Option Address) (rest : List Text),
        tracePrefix.length + 2 ≤ 2048 →
        receiveMessage limits faults true body tracePrefix
          (.new root id bufferLimit (limits.messageBytes + 2048) limited) pieces
            = .ok (stage, author, rest) →
        ∃ (named : Address) (frames : List Text), author = some named ∧ DataFrames frames
          ∧ pieces.flatten = frames.flatMap (· ++ crlf) ++ Client.terminator ++ rest.flatten
          ∧ NamesAuthor (headerLines (frames.map unstuffed)) named
          ∧ stage.hashed = tracePrefix ++ storedText true (frames.map unstuffed) := by
  refine ⟨?_, ?_, ?_⟩
  · intro lines author
    constructor
    · rintro ⟨filter, kept, identities, hretained, hidentities, hauthor⟩
      have hwell := (@HeaderFilter.retainAll_initial _ _ _ true hretained).1
      refine ⟨?_, (identities_iff hwell).1 ⟨identities, hidentities, hauthor⟩⟩
      rw [hretained]
      rfl
    · rintro ⟨hsome, hnames⟩
      obtain ⟨⟨filter, kept⟩, hretained⟩ := Option.isSome_iff_exists.1 hsome
      have hwell := (@HeaderFilter.retainAll_initial _ _ _ true hretained).1
      obtain ⟨identities, hidentities, hauthor⟩ := (identities_iff hwell).2 hnames
      exact ⟨filter, kept, identities, hretained, hidentities, hauthor⟩
  · intro lines filter kept hretained
    rw [(@HeaderFilter.retainAll_initial _ _ _ true hretained).2, funext keeps_submission]
  · intro limits faults body tracePrefix root id bufferLimit limited pieces stage author rest hshort h
    rcases @receiveMessage_cases limits faults true body tracePrefix root id bufferLimit limited
      hshort pieces with ⟨e, herror, -⟩ | ⟨stage', author', rest', frames, hok, hframes, hbytes, haccepted⟩
    · rw [h] at herror
      cases herror
    · rw [h] at hok
      cases hok
      obtain ⟨filter, kept, hretained⟩ := haccepted.filtered
      obtain ⟨identities, hidentities, hsame, hsome⟩ := haccepted.identified rfl
      obtain ⟨found, hfound⟩ := Option.isSome_iff_exists.1 hsome
      have hwell := (HeaderFilter.retainAll_initial hretained).1
      exact ⟨found, frames, hfound, hframes, hbytes,
        ((identities_iff hwell).1 ⟨identities, hidentities, hsame.trans hfound⟩).1, haccepted.stored⟩

/-- A folded Bcc field in front of an author in brackets. -/
def Sample.submitted : List Text :=
  [ascii "Bcc: c@d.example,", ascii " e@f.example", ascii "FROM: \"A\" <a@b.example>"]

theorem submission_names_author_display :
    NamesAuthor Sample.submitted ⟨ascii "a@b.example", by decide, by decide⟩ ∧ PlainNames Sample.submitted := by
  have haccepted : ∃ filter kept identities,
      HeaderFilter.submission.retainAll (Sample.submitted.map (· ++ crlf)) = some (filter, kept)
        ∧ SubmissionHeaders.lines {} (Sample.submitted.map (· ++ crlf)) = some identities
        ∧ identities.author = some ⟨ascii "a@b.example", by decide, by decide⟩ :=
    ⟨_, _, _, rfl, rfl, rfl⟩
  exact ((submission_names_author.1 Sample.submitted _).1 haccepted).2

end Rustymail
