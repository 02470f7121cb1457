import Rustymail.Store.Verified

/-!
# What a verified end means

Whatever the file answers, the reads return a text that is no longer than expected, and only the
expected one up to a successful end; a file that has the expected content is read to its end.
-/

namespace Rustymail

variable {sha256 : Text → Text} {reader : VerifiedReader} {request : ReadRequest}

/-! ### One read -/

/-- What a read can come to. -/
inductive VerifiedReader.Reads (sha256 : Text → Text) (reader : VerifiedReader)
    (request : ReadRequest) : VerifiedReader × Except ReadError Text → Prop
  | idle (hidle : request.capacity = 0 ∨ reader.verified = true) : Reads sha256 reader request (reader, .ok [])
  | refused (hroom : request.capacity ≠ 0) (hopen : reader.verified = false)
      (hfailed : reader.failed = true) : Reads sha256 reader request (reader, .error .integrity)
  | broken (hroom : request.capacity ≠ 0) (hopen : reader.verified = false)
      (hwhole : reader.failed = false) (e : ReadError) (he : e ≠ .integrity)
      (hanswer : ∀ chunk, request.answer = .ok chunk → 2 ^ 64 ≤ reader.readBytes + chunk.length) :
      Reads sha256 reader request (reader, .error e)
  | rejected (hroom : request.capacity ≠ 0) (hopen : reader.verified = false)
      (hwhole : reader.failed = false) (chunk : Text) (hanswer : request.answer = .ok chunk)
      (hmismatch : (reader.take chunk).mismatch sha256 chunk.isEmpty = true) :
      Reads sha256 reader request ({ reader.take chunk with failed := true }, .error .integrity)
  | taken (hroom : request.capacity ≠ 0) (hopen : reader.verified = false)
      (hwhole : reader.failed = false) (chunk : Text) (hanswer : request.answer = .ok chunk)
      (hmatch : (reader.take chunk).mismatch sha256 chunk.isEmpty = false) :
      Reads sha256 reader request ({ reader.take chunk with verified := chunk.isEmpty }, .ok chunk)

namespace VerifiedReader

theorem reads (sha256 : Text → Text) (reader : VerifiedReader) (request : ReadRequest) :
    Reads sha256 reader request (reader.read sha256 request) := by
  unfold read
  by_cases hidle : request.capacity = 0 ∨ reader.verified = true
  · rw [if_pos hidle]
    exact .idle hidle
  rw [if_neg hidle]
  rw [not_or, Bool.not_eq_true] at hidle
  obtain ⟨hroom, hopen⟩ := hidle
  by_cases hfailed : reader.failed = true
  · rw [if_pos hfailed]
    exact .refused hroom hopen hfailed
  rw [if_neg hfailed]
  rw [Bool.not_eq_true] at hfailed
  cases hanswer : request.answer with
  | error interrupted =>
      refine .broken hroom hopen hfailed _ (by simp) ?_
      intro chunk hchunk
      rw [hanswer] at hchunk
      cases hchunk
  | ok chunk =>
      dsimp only
      by_cases hoverflow : 2 ^ 64 ≤ reader.readBytes + chunk.length
      · rw [if_pos hoverflow]
        refine .broken hroom hopen hfailed _ (by simp) ?_
        intro other hother
        rw [hanswer] at hother
        cases hother
        exact hoverflow
      rw [if_neg hoverflow]
      by_cases hmismatch : (reader.take chunk).mismatch sha256 chunk.isEmpty = true
      · rw [if_pos hmismatch]
        exact .rejected hroom hopen hfailed chunk hanswer hmismatch
      · rw [if_neg hmismatch]
        exact .taken hroom hopen hfailed chunk hanswer (Bool.eq_false_iff.2 hmismatch)

/-- The bytes fit, and at the end they are the expected ones. -/
theorem mismatch_eq_false {atEnd : Bool} :
    reader.mismatch sha256 atEnd = false ↔ reader.hashed.length ≤ reader.expectedSize
      ∧ (atEnd = true → reader.hashed.length = reader.expectedSize
        ∧ sha256 reader.hashed = reader.expectedHash) := by
  unfold mismatch
  rw [reader.counted]
  cases atEnd with
  | false => simp
  | true => simp [not_lt]

end VerifiedReader

/-! ### Any file -/

namespace Readout

variable {readout : Readout} {size : Nat} {hash : Text}

/-- What holds of a reader and the results of its reads. -/
structure Sound (sha256 : Text → Text) (size : Nat) (hash : Text) (readout : Readout) : Prop where
  size_eq : readout.reader.expectedSize = size
  hash_eq : readout.reader.expectedHash = hash
  within : readout.content.length ≤ size
  hashed : readout.reader.failed = false → readout.content = readout.reader.hashed
  verified : readout.reader.verified = true →
    readout.content.length = size ∧ sha256 readout.content = hash
  apart : readout.reader.failed = true → readout.reader.verified = false
  integrity : Except.error ReadError.integrity ∈ readout.results → readout.reader.failed = true

theorem Sound.start (sha256 : Text → Text) (size : Nat) (hash : Text) :
    (start size hash).Sound sha256 size hash where
  size_eq := rfl
  hash_eq := rfl
  within := Nat.zero_le _
  hashed _ := rfl
  verified hverified := by cases hverified
  apart hfailed := by cases hfailed
  integrity hmem := by cases hmem

/-- A chunk that was taken fits, and the last one is empty only behind the expected bytes. -/
theorem Sound.fits (h : readout.Sound sha256 size hash) (hwhole : readout.reader.failed = false)
    {chunk : Text}
    (hmatch : (readout.reader.take chunk).mismatch sha256 chunk.isEmpty = false) :
    (readout.content ++ chunk).length ≤ size
      ∧ (chunk = [] → readout.content.length = size ∧ sha256 readout.content = hash) := by
  rw [VerifiedReader.mismatch_eq_false] at hmatch
  obtain ⟨hfits, hend⟩ := hmatch
  have hhashed : (readout.reader.take chunk).hashed = readout.content ++ chunk := by
    rw [h.hashed hwhole]
    rfl
  have hsize : (readout.reader.take chunk).expectedSize = size := h.size_eq
  have hhash : (readout.reader.take chunk).expectedHash = hash := h.hash_eq
  rw [hhashed, hsize, hhash] at hend
  rw [hhashed, hsize] at hfits
  refine ⟨hfits, ?_⟩
  rintro rfl
  rw [List.append_nil] at hend
  exact hend rfl

theorem content_snoc (reader : VerifiedReader) (results : List (Except ReadError Text))
    (result : Except ReadError Text) :
    content ⟨reader, results ++ [result]⟩ = content ⟨reader, results⟩ ++ returned result := by
  unfold content
  rw [List.flatMap_append, List.flatMap_singleton]

/-- A read that gives nothing and leaves the reader as it is. -/
theorem Sound.unchanged (h : readout.Sound sha256 size hash) {result : Except ReadError Text}
    (hnothing : returned result = [])
    (hintegrity : result = .error .integrity → readout.reader.failed = true) :
    Sound sha256 size hash ⟨readout.reader, readout.results ++ [result]⟩ := by
  have hsame : content ⟨readout.reader, readout.results ++ [result]⟩ = readout.content := by
    rw [content_snoc, hnothing, List.append_nil]
  refine ⟨h.size_eq, h.hash_eq, ?_, ?_, ?_, h.apart, ?_⟩
  · rw [hsame]
    exact h.within
  · rw [hsame]
    exact h.hashed
  · rw [hsame]
    exact h.verified
  · intro hmem
    rcases List.mem_append.1 hmem with hold | hnew
    · exact h.integrity hold
    · exact hintegrity (List.mem_singleton.1 hnew).symm

/-- **The step.** -/
theorem Sound.next (h : readout.Sound sha256 size hash) (request : ReadRequest) :
    (readout.next sha256 request).Sound sha256 size hash := by
  have hreads := readout.reader.reads sha256 request
  unfold Readout.next
  generalize readout.reader.read sha256 request = outcome at hreads
  cases hreads with
  | idle hidle => exact h.unchanged rfl fun hresult => by cases hresult
  | refused hroom hopen hfailed => exact h.unchanged rfl fun _ => hfailed
  | broken hroom hopen hwhole e he hanswer =>
      exact h.unchanged rfl fun hresult => absurd (Except.error.inj hresult) he
  | rejected hroom hopen hwhole chunk hanswer hmismatch =>
      have hsame : content ⟨{ readout.reader.take chunk with failed := true },
          readout.results ++ [.error .integrity]⟩ = readout.content := by
        rw [content_snoc]
        exact List.append_nil _
      refine ⟨h.size_eq, h.hash_eq, ?_, ?_, ?_, fun _ => hopen, fun _ => rfl⟩
      · dsimp only
        rw [hsame]
        exact h.within
      · intro hfalse
        cases hfalse
      · intro hverified
        rw [show readout.reader.verified = true from hverified] at hopen
        cases hopen
  | taken hroom hopen hwhole chunk hanswer hmatch =>
      obtain ⟨hfits, hend⟩ := h.fits hwhole hmatch
      have hgrown : content ⟨{ readout.reader.take chunk with verified := chunk.isEmpty },
          readout.results ++ [.ok chunk]⟩ = readout.content ++ chunk := by
        rw [content_snoc]
        rfl
      refine ⟨h.size_eq, h.hash_eq, ?_, ?_, ?_, ?_, ?_⟩
      · dsimp only
        rw [hgrown]
        exact hfits
      · intro _
        dsimp only
        rw [hgrown, h.hashed hwhole]
        rfl
      · intro hverified
        have hempty : chunk = [] := List.isEmpty_iff.1 hverified
        dsimp only
        rw [hgrown, hempty, List.append_nil]
        exact hend hempty
      · intro hfailed
        rw [show readout.reader.failed = true from hfailed] at hwhole
        cases hwhole
      · intro hmem
        rcases List.mem_append.1 hmem with hold | hnew
        · rw [h.integrity hold] at hwhole
          cases hwhole
        · cases List.mem_singleton.1 hnew

theorem run_sound (sha256 : Text → Text) (size : Nat) (hash : Text) (requests : List ReadRequest) :
    ((start size hash).run sha256 requests).Sound sha256 size hash :=
  Runs.invariant _ (.start sha256 size hash) (fun _ request h => h.next request) requests

/-- A successful end comes behind the expected bytes only. -/
theorem Sound.ended (h : readout.Sound sha256 size hash) (hroom : 0 < request.capacity)
    (hend : (readout.reader.read sha256 request).2 = .ok []) :
    readout.content.length = size ∧ sha256 readout.content = hash := by
  have hreads := readout.reader.reads sha256 request
  generalize readout.reader.read sha256 request = outcome at hreads hend
  cases hreads with
  | idle hidle => exact h.verified (hidle.resolve_left (Nat.pos_iff_ne_zero.1 hroom))
  | refused => cases hend
  | broken => cases hend
  | rejected => cases hend
  | taken hroom hopen hwhole chunk hanswer hmatch =>
      cases hend
      exact (h.fits hwhole hmatch).2 rfl

/-- After an integrity error nothing more is read. -/
theorem Sound.refuses (h : readout.Sound sha256 size hash)
    (hintegrity : Except.error ReadError.integrity ∈ readout.results) (hroom : 0 < request.capacity) :
    (readout.reader.read sha256 request).2 = .error .integrity := by
  have hfailed := h.integrity hintegrity
  have hopen := h.apart hfailed
  have hreads := readout.reader.reads sha256 request
  generalize readout.reader.read sha256 request = outcome at hreads
  cases hreads with
  | idle hidle =>
      rcases hidle with hnone | hverified
      · omega
      · exact absurd (hopen.symm.trans hverified) Bool.false_ne_true
  | refused => rfl
  | broken hroom hopen hwhole =>
      rw [hfailed] at hwhole
      cases hwhole
  | rejected => rfl
  | taken hroom hopen hwhole =>
      rw [hfailed] at hwhole
      cases hwhole

/-! ### A file that matches -/

/-- The reads so far have returned the content up to what is left of it. -/
structure Along (sha256 : Text → Text) (whole left : Text) (readout : Readout) : Prop where
  size_eq : readout.reader.expectedSize = whole.length
  hash_eq : readout.reader.expectedHash = sha256 whole
  split : whole = readout.content ++ left
  hashed : readout.reader.hashed = readout.content
  sane : readout.reader.failed = false
  ended : readout.reader.verified = true → left = []

theorem Along.start (sha256 : Text → Text) (whole : Text) :
    Along sha256 whole whole (start whole.length (sha256 whole)) where
  size_eq := rfl
  hash_eq := rfl
  split := rfl
  hashed := rfl
  sane := rfl
  ended hverified := by cases hverified

/-- A read of a file that matches returns what the file gives. -/
theorem Along.next {whole left chunk : Text} (h : Along sha256 whole (chunk ++ left) readout)
    (hsmall : whole.length < 2 ^ 64) (hanswer : request.answer = .ok chunk)
    (hempty : chunk = [] → request.capacity = 0 ∨ chunk ++ left = []) :
    (readout.reader.read sha256 request).2 = .ok chunk
      ∧ Along sha256 whole left (readout.next sha256 request) := by
  have hlength := congrArg List.length h.split
  rw [List.length_append, List.length_append] at hlength
  have hreads := readout.reader.reads sha256 request
  unfold Readout.next
  generalize readout.reader.read sha256 request = outcome at hreads
  cases hreads with
  | idle hidle =>
      have hnone : chunk = [] := by
        rcases hidle with hroom | hverified
        · have hfits := request.fits chunk hanswer
          rw [hroom] at hfits
          exact List.length_eq_zero_iff.1 (Nat.le_zero.1 hfits)
        · exact (List.append_eq_nil_iff.1 (h.ended hverified)).1
      subst hnone
      have hsame : content ⟨readout.reader, readout.results ++ [.ok []]⟩ = readout.content := by
        rw [content_snoc]
        exact List.append_nil _
      exact ⟨rfl, h.size_eq, h.hash_eq, by rw [hsame]; exact h.split, by rw [hsame]; exact h.hashed,
        h.sane, h.ended⟩
  | refused hroom hopen hfailed =>
      rw [h.sane] at hfailed
      cases hfailed
  | broken hroom hopen hwhole e he hoverflow =>
      have hlarge := hoverflow chunk hanswer
      rw [readout.reader.counted, h.hashed] at hlarge
      omega
  | rejected hroom hopen hwhole other hother hmismatch =>
      rw [hanswer] at hother
      cases hother
      refine absurd hmismatch (Bool.eq_false_iff.1 (VerifiedReader.mismatch_eq_false.2 ?_))
      change (readout.reader.hashed ++ chunk).length ≤ readout.reader.expectedSize
        ∧ (chunk.isEmpty = true →
          (readout.reader.hashed ++ chunk).length = readout.reader.expectedSize
            ∧ sha256 (readout.reader.hashed ++ chunk) = readout.reader.expectedHash)
      rw [h.hashed, h.size_eq, h.hash_eq, List.length_append]
      refine ⟨by omega, ?_⟩
      intro hend
      have hnone := List.isEmpty_iff.1 hend
      have hrest := (hempty hnone).resolve_left hroom
      have hall : whole = readout.content ++ chunk := by
        rw [h.split, hrest, hnone]
      rw [← hall]
      refine ⟨?_, rfl⟩
      rw [hall, List.length_append]
  | taken hroom hopen hwhole other hother hmatch =>
      rw [hanswer] at hother
      cases hother
      have hgrown : content ⟨{ readout.reader.take chunk with verified := chunk.isEmpty },
          readout.results ++ [.ok chunk]⟩ = readout.content ++ chunk := by
        rw [content_snoc]
        rfl
      refine ⟨rfl, h.size_eq, h.hash_eq, ?_, ?_, h.sane, ?_⟩
      · dsimp only
        rw [hgrown, List.append_assoc]
        exact h.split
      · dsimp only
        rw [hgrown, ← h.hashed]
        rfl
      · intro hverified
        have hnone := List.isEmpty_iff.1 (show chunk.isEmpty = true from hverified)
        exact (List.append_eq_nil_iff.1 ((hempty hnone).resolve_left hroom)).2

/-- A run on a file that matches, and what the file has left for the reads after it. -/
theorem Along.run {whole left : Text} (h : Along sha256 whole left readout)
    (hsmall : whole.length < 2 ^ 64) (before : List ReadRequest) {rest : List ReadRequest}
    (hsupplies : Supplies left (before ++ rest)) :
    ∃ left', Along sha256 whole left' (readout.run sha256 before) ∧ Supplies left' rest
      ∧ (readout.run sha256 before).results
        = readout.results ++ before.map (fun request => request.answer.mapError .file)
      ∧ (left' = [] ∨ left'.length + (before.filter fun request => 0 < request.capacity).length
        ≤ left.length) := by
  induction before generalizing readout left with
  | nil => exact ⟨left, h, hsupplies, (List.append_nil _).symm, Or.inr (Nat.le_refl _)⟩
  | cons request before ih =>
      obtain ⟨chunk, next, hanswer, rfl, hempty, hlater⟩ := hsupplies
      obtain ⟨hresult, halong⟩ := h.next hsmall hanswer hempty
      obtain ⟨left', hafter, hrest, hresults, hprogress⟩ := ih halong hlater
      refine ⟨left', hafter, hrest, ?_, ?_⟩
      · change ((readout.next sha256 request).run sha256 before).results = _
        rw [hresults, List.map_cons, hanswer]
        change readout.results ++ [(readout.reader.read sha256 request).2] ++ _ = _
        rw [hresult, List.append_assoc]
        rfl
      · rcases hprogress with hdone | hprogress
        · exact Or.inl hdone
        · rw [List.filter_cons, List.length_append]
          by_cases hroom : 0 < request.capacity
          · rw [if_pos (decide_eq_true hroom), List.length_cons]
            cases chunk with
            | nil =>
                have hnone := (hempty rfl).resolve_left (Nat.pos_iff_ne_zero.1 hroom)
                have hnext : next = [] := hnone
                refine Or.inl (List.length_eq_zero_iff.1 ?_)
                rw [hnext, List.length_nil] at hprogress
                omega
            | cons byte tail =>
                refine Or.inr ?_
                rw [List.length_cons]
                omega
          · rw [if_neg (by simp [hroom])]
            exact Or.inr (by omega)

/-- On a file that matches, a read comes to the end exactly if everything has been returned. -/
theorem Along.read_end {whole left : Text} {rest : List ReadRequest}
    (h : Along sha256 whole left readout) (hsmall : whole.length < 2 ^ 64)
    (hsupplies : Supplies left (request :: rest)) (hroom : 0 < request.capacity) :
    (readout.reader.read sha256 request).2 = .ok [] ↔ readout.content = whole := by
  obtain ⟨chunk, next, hanswer, rfl, hempty, -⟩ := hsupplies
  rw [(h.next hsmall hanswer hempty).1]
  constructor
  · intro hend
    have hnone := (hempty (Except.ok.inj hend)).resolve_left (Nat.pos_iff_ne_zero.1 hroom)
    rw [h.split, hnone, List.append_nil]
  · intro hall
    have hsplit := h.split
    rw [hall] at hsplit
    have hnone := List.self_eq_append_right.1 hsplit
    rw [(List.append_eq_nil_iff.1 hnone).1]

end Readout

end Rustymail
