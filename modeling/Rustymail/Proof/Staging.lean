import Rustymail.Proof.CompleteBlobs
import Rustymail.Store.Staging
import Mathlib.Order.MinMax

/-!
# Bytes, size and hash in step

What a stage stands for is the content of its file followed by its buffer. The loop of `append`
moves bytes from one to the other and adds the new ones; when it is stopped, some beginning of them
is in the file and the stage stays poisoned.
-/

namespace Rustymail.Staging

variable {stage last : Staging} {bytes remaining : Text} {writes : List WriteOutcome} {fuel more : Nat}
  {ended : Ended Unit} {call : AppendCall} {calls : List AppendCall}

/-! ### The loop -/

/-- Bytes that leave the buffer short of its limit stay there. -/
theorem fill_short {limit : Nat} {buffer taken : Text} (h : (buffer ++ taken).length < limit)
    (rest : Text) :
    StagedMessage.fill limit buffer (taken ++ rest) = StagedMessage.fill limit (buffer ++ taken) rest := by
  induction taken generalizing buffer with
  | nil => rw [List.nil_append, List.append_nil]
  | cons byte taken ih =>
      have hone : (buffer ++ [byte] ++ taken).length < limit := by
        rwa [List.append_assoc, List.singleton_append]
      have hnot : ¬ (buffer ++ [byte]).length = limit := by
        rw [List.length_append] at hone
        omega
      rw [List.cons_append, StagedMessage.fill, if_neg hnot, ih hone, List.append_assoc,
        List.singleton_append]

/-- Bytes that fill the buffer up are written with it. -/
theorem fill_full {limit : Nat} {buffer taken : Text} (hroom : buffer.length < limit)
    (h : (buffer ++ taken).length = limit) (rest : Text) :
    StagedMessage.fill limit buffer (taken ++ rest)
      = (buffer ++ taken ++ (StagedMessage.fill limit [] rest).1, (StagedMessage.fill limit [] rest).2) := by
  obtain rfl | ⟨init, byte, rfl⟩ := List.eq_nil_or_concat taken
  · rw [List.append_nil] at h
    omega
  · have hshort : (buffer ++ init).length < limit := by
      rw [List.concat_eq_append, ← List.append_assoc, List.length_append, List.length_singleton] at h
      omega
    have hbyte : (buffer ++ init ++ [byte]).length = limit := by
      rwa [List.append_assoc, ← List.concat_eq_append]
    rw [List.concat_eq_append, List.append_assoc, fill_short hshort, List.singleton_append,
      StagedMessage.fill, if_pos hbyte, ← List.append_assoc]

/-- What the loop makes of a stage and the bytes it is given. -/
structure Advanced (stage : Staging) (bytes : Text) (last : Staging) (ended : Ended Unit) : Prop where
  frame : last = { stage with buffer := last.buffer, content := last.content, peak := last.peak }
  room : last.buffer.length < last.bufferLimit
  peak : last.peak ≤ max stage.peak stage.bufferLimit
  grown : stage.content <+: last.content
  reached : last.content <+: stage.content ++ (stage.buffer ++ bytes)
  filled : ended = .returned (.ok ()) →
    (last.content, last.buffer)
      = (stage.content ++ (StagedMessage.fill stage.bufferLimit stage.buffer bytes).1,
        (StagedMessage.fill stage.bufferLimit stage.buffer bytes).2)

/-- No byte is lost. -/
theorem Advanced.complete (h : Advanced stage bytes last ended) (hok : ended = .returned (.ok ())) :
    last.content ++ last.buffer = stage.content ++ (stage.buffer ++ bytes) := by
  obtain ⟨hcontent, hbuffer⟩ := Prod.mk.inj (h.filled hok)
  rw [hcontent, hbuffer, List.append_assoc, StagedMessage.fill_append]

/-- A full buffer of which `n` bytes reach the file, and then an end. -/
theorem Advanced.stopped {taken : Text} (hroom : stage.buffer.length < stage.bufferLimit)
    (hfits : (stage.buffer ++ taken).length ≤ stage.bufferLimit) (rest : Text) (n : Nat)
    (hended : ended ≠ .returned (.ok ())) :
    Advanced stage (taken ++ rest) ((stage.extend taken).flush n) ended where
  frame := rfl
  room := by
    change 0 < stage.bufferLimit
    omega
  peak := max_le_max le_rfl hfits
  grown := List.prefix_append _ _
  reached := by
    change stage.content ++ (stage.buffer ++ taken).take n <+: _
    rw [List.prefix_append_right_inj, ← List.append_assoc]
    exact (List.take_prefix _ _).trans (List.prefix_append _ _)
  filled := fun h => absurd h hended

/-- A round that goes on. -/
theorem Advanced.next {middle : Staging} {taken rest : Text}
    (hfits : (stage.buffer ++ taken).length ≤ stage.bufferLimit)
    (hmiddle : middle = { stage with
      buffer := middle.buffer
      content := middle.content
      peak := (stage.extend taken).peak })
    (hgrown : stage.content <+: middle.content)
    (hbytes : middle.content ++ middle.buffer = stage.content ++ (stage.buffer ++ taken))
    (hfill : stage.content ++ (StagedMessage.fill stage.bufferLimit stage.buffer (taken ++ rest)).1
        = middle.content ++ (StagedMessage.fill stage.bufferLimit middle.buffer rest).1
      ∧ (StagedMessage.fill stage.bufferLimit stage.buffer (taken ++ rest)).2
        = (StagedMessage.fill stage.bufferLimit middle.buffer rest).2)
    (h : Advanced middle rest last ended) : Advanced stage (taken ++ rest) last ended := by
  have hall : middle.content ++ (middle.buffer ++ rest)
      = stage.content ++ (stage.buffer ++ (taken ++ rest)) := by
    calc
      middle.content ++ (middle.buffer ++ rest) = middle.content ++ middle.buffer ++ rest :=
        (List.append_assoc _ _ _).symm
      _ = stage.content ++ (stage.buffer ++ taken) ++ rest := by rw [hbytes]
      _ = stage.content ++ (stage.buffer ++ (taken ++ rest)) := by simp only [List.append_assoc]
  refine ⟨?_, h.room, ?_, hgrown.trans h.grown, ?_, ?_⟩
  · rw [h.frame, hmiddle]
  · refine h.peak.trans ?_
    rw [hmiddle]
    exact max_le (max_le_max le_rfl hfits) (le_max_right _ _)
  · rw [← hall]
    exact h.reached
  · intro hok
    have hlimit : middle.bufferLimit = stage.bufferLimit := by rw [hmiddle]
    rw [h.filled hok, hlimit, hfill.1, hfill.2]

/-- **The loop ends**, with every byte in its place or stopped on the way. -/
theorem appendLoop_advanced (hroom : stage.buffer.length < stage.bufferLimit)
    (hfuel : remaining.length < fuel) :
    ∃ last ended, appendLoop fuel stage remaining writes = some (last, ended)
      ∧ Advanced stage remaining last ended := by
  induction fuel generalizing stage remaining writes with
  | zero => exact absurd hfuel (Nat.not_lt_zero _)
  | succ fuel ih =>
      rw [appendLoop]
      by_cases hempty : remaining = []
      · rw [if_pos hempty]
        refine ⟨stage, _, rfl, rfl, hroom, le_max_left _ _, List.prefix_rfl, List.prefix_append _ _, ?_⟩
        intro _
        rw [hempty, StagedMessage.fill, List.append_nil]
      · rw [if_neg hempty]
        dsimp only
        generalize hcount : min remaining.length (stage.bufferLimit - stage.buffer.length) = count
        have hpos : 0 < remaining.length := List.length_pos_of_ne_nil hempty
        have hrest : (remaining.drop count).length < fuel := by
          rw [List.length_drop]
          omega
        have hlength : (stage.buffer ++ remaining.take count).length = stage.buffer.length + count := by
          rw [List.length_append, List.length_take]
          omega
        have hfits : (stage.buffer ++ remaining.take count).length ≤ stage.bufferLimit := by
          rw [hlength]
          omega
        have hsplit : Advanced stage remaining = Advanced stage (remaining.take count ++ remaining.drop count) := by
          rw [List.take_append_drop]
        rw [hsplit]
        by_cases hfull : (stage.extend (remaining.take count)).buffer.length
            = (stage.extend (remaining.take count)).bufferLimit
        · rw [if_pos hfull]
          cases writes.headD .done with
          | done =>
              dsimp only
              have hnext : (0 : Nat) < stage.bufferLimit := by omega
              obtain ⟨last, ended, hloop, h⟩ :=
                @ih ((stage.extend (remaining.take count)).flush (stage.extend (remaining.take count)).buffer.length)
                  (remaining.drop count) writes.tail hnext hrest
              have htaken : ((stage.extend (remaining.take count)).flush
                  (stage.extend (remaining.take count)).buffer.length).content
                    = stage.content ++ (stage.buffer ++ remaining.take count) :=
                congrArg (stage.content ++ ·) List.take_length
              refine ⟨last, ended, hloop, h.next hfits rfl (List.prefix_append _ _) ?_ ?_⟩
              · rw [htaken]
                exact List.append_nil _
              · rw [fill_full hroom hfull, htaken]
                exact ⟨(List.append_assoc _ _ _).symm, rfl⟩
          | failed torn e =>
              refine ⟨_, _, rfl, Advanced.stopped hroom hfits _ torn ?_⟩
              intro hdone
              cases hdone
          | cancelled torn =>
              refine ⟨_, _, rfl, Advanced.stopped hroom hfits _ torn ?_⟩
              intro hdone
              cases hdone
        · rw [if_neg hfull]
          have hnext : (stage.extend (remaining.take count)).buffer.length
              < (stage.extend (remaining.take count)).bufferLimit := lt_of_le_of_ne hfits hfull
          obtain ⟨last, ended, hloop, h⟩ := @ih _ (remaining.drop count) writes hnext hrest
          refine ⟨last, ended, hloop, ?_⟩
          refine @Advanced.next stage last ended (stage.extend (remaining.take count)) _ _ hfits rfl
            List.prefix_rfl rfl ?_ h
          have hshort : (stage.buffer ++ remaining.take count).length < stage.bufferLimit := hnext
          rw [fill_short hshort]
          exact ⟨rfl, rfl⟩

/-- More rounds change nothing. -/
theorem appendLoop_more (h : appendLoop fuel stage remaining writes = some (last, ended))
    (hle : fuel ≤ more) : appendLoop more stage remaining writes = some (last, ended) := by
  induction fuel generalizing more stage remaining writes with
  | zero => cases h
  | succ fuel ih =>
      obtain ⟨more, rfl⟩ : ∃ n, more = n + 1 := ⟨more - 1, by omega⟩
      have hle' : fuel ≤ more := Nat.le_of_succ_le_succ hle
      rw [appendLoop] at h ⊢
      by_cases hempty : remaining = []
      · rwa [if_pos hempty] at h ⊢
      · rw [if_neg hempty] at h ⊢
        dsimp only at h ⊢
        split at h
        · next hfull =>
            rw [if_pos hfull]
            cases hwrite : writes.headD .done with
            | done =>
                rw [hwrite] at h
                exact ih h hle'
            | failed torn e =>
                rw [hwrite] at h
                exact h
            | cancelled torn =>
                rw [hwrite] at h
                exact h
        · next hfull =>
            rw [if_neg hfull]
            exact ih h hle'

/-! ### A call -/

/-- While nothing has gone wrong, the stage stands for the bytes it was given. -/
structure InStep (stage : Staging) (bytes : Text) : Prop where
  whole : stage.content ++ stage.buffer = bytes
  hashed : stage.hashed = bytes
  size : stage.size = bytes.length
  bounded : stage.size ≤ stage.maxSize

/-- A stage between two calls, after `bytes` have been accepted. -/
structure Sound (stage : Staging) (bytes : Text) : Prop where
  room : stage.buffer.length < stage.bufferLimit
  peak : stage.peak ≤ stage.bufferLimit
  inStep : stage.poisoned = false → stage.InStep bytes

/-- What a call makes of a stage. -/
structure Appended (stage : Staging) (bytes : Text) (call : AppendCall) (last : Staging)
    (ended : Ended Unit) : Prop where
  limit : last.bufferLimit = stage.bufferLimit
  maxSize : last.maxSize = stage.maxSize
  sound : last.Sound (bytes ++ call.bytes)
  refused : stage.poisoned = true → ended = .returned (.error .poisonedStage)
  poisoned : ended ≠ .returned (.ok ()) → last.poisoned = true
  accepted : ended = .returned (.ok ()) → last.poisoned = false

/-- A call that leaves the stage poisoned. -/
theorem Appended.failed (hlimit : last.bufferLimit = stage.bufferLimit)
    (hmax : last.maxSize = stage.maxSize) (hroom : last.buffer.length < last.bufferLimit)
    (hpeak : last.peak ≤ last.bufferLimit) (hpoisoned : last.poisoned = true)
    (hrefused : stage.poisoned = true → ended = .returned (.error .poisonedStage))
    (hended : ended ≠ .returned (.ok ())) : Appended stage bytes call last ended where
  limit := hlimit
  maxSize := hmax
  sound := ⟨hroom, hpeak, fun h => by rw [hpoisoned] at h; cases h⟩
  refused := hrefused
  poisoned := fun _ => hpoisoned
  accepted := fun h => absurd h hended

/-- **A call ends**, and has added all of its bytes or poisoned the stage. -/
theorem append_appended (h : stage.Sound bytes) (hfuel : call.bytes.length < fuel) :
    ∃ last ended, append fuel stage call = some (last, ended)
      ∧ Appended stage bytes call last ended := by
  rw [append]
  cases hpoisoned : stage.poisoned with
  | true =>
      exact ⟨stage, _, rfl, .failed rfl rfl h.room h.peak hpoisoned (fun _ => rfl) nofun⟩
  | false =>
      rw [if_neg Bool.false_ne_true]
      by_cases hsize : stage.size + call.bytes.length ≤ stage.maxSize
      · rw [if_pos hsize]
        dsimp only
        cases hhit : call.hit with
        | true =>
            exact ⟨_, _, rfl, .failed rfl rfl h.room h.peak rfl (by rw [hpoisoned]; exact nofun) nofun⟩
        | false =>
            rw [if_neg Bool.false_ne_true]
            obtain ⟨last, ended, hloop, hadvanced⟩ :=
              @appendLoop_advanced { stage with poisoned := true } call.bytes call.writes fuel h.room hfuel
            have hframe := hadvanced.frame
            have hlimit : last.bufferLimit = stage.bufferLimit := by rw [hframe]
            have hmax : last.maxSize = stage.maxSize := by rw [hframe]
            have hpeak : last.peak ≤ last.bufferLimit := by
              rw [hlimit]
              exact hadvanced.peak.trans (max_le h.peak le_rfl)
            have hlast : last.poisoned = true := by rw [hframe]
            rw [hloop]
            match ended, hadvanced with
            | .returned (.ok ()), hadvanced =>
                refine ⟨_, _, rfl, hlimit, hmax, ⟨hadvanced.room, hpeak, fun _ => ?_⟩, ?_, ?_, fun _ => rfl⟩
                · have hin := h.inStep hpoisoned
                  have hhashed : last.hashed = stage.hashed := by rw [hframe]
                  have hlastSize : last.size = stage.size := by rw [hframe]
                  refine ⟨?_, ?_, ?_, ?_⟩
                  · change last.content ++ last.buffer = _
                    rw [hadvanced.complete rfl, ← hin.whole, List.append_assoc]
                  · change last.hashed ++ call.bytes = _
                    rw [hhashed, hin.hashed]
                  · change last.size + call.bytes.length = _
                    rw [hlastSize, hin.size, List.length_append]
                  · change last.size + call.bytes.length ≤ last.maxSize
                    rw [hlastSize, hmax]
                    exact hsize
                · rw [hpoisoned]
                  exact nofun
                · exact fun hne => absurd rfl hne
            | .returned (.error e), hadvanced =>
                exact ⟨last, _, rfl, .failed hlimit hmax hadvanced.room hpeak hlast
                  (by rw [hpoisoned]; exact nofun) nofun⟩
            | .cancelled, hadvanced =>
                exact ⟨last, _, rfl, .failed hlimit hmax hadvanced.room hpeak hlast
                  (by rw [hpoisoned]; exact nofun) nofun⟩
      · rw [if_neg hsize]
        exact ⟨_, _, rfl, .failed rfl rfl h.room h.peak rfl (by rw [hpoisoned]; exact nofun) nofun⟩

theorem append_more (h : append fuel stage call = some (last, ended)) (hle : fuel ≤ more) :
    append more stage call = some (last, ended) := by
  rw [append] at h ⊢
  by_cases hpoisoned : stage.poisoned = true
  · rwa [if_pos hpoisoned] at h ⊢
  · rw [if_neg hpoisoned] at h ⊢
    by_cases hsize : stage.size + call.bytes.length ≤ stage.maxSize
    · rw [if_pos hsize] at h ⊢
      dsimp only at h ⊢
      by_cases hhit : call.hit = true
      · rwa [if_pos hhit] at h ⊢
      · rw [if_neg hhit] at h ⊢
        cases hloop : appendLoop fuel { stage with poisoned := true } call.bytes call.writes with
        | none =>
            rw [hloop] at h
            cases h
        | some result =>
            obtain ⟨middle, outcome⟩ := result
            rw [appendLoop_more hloop hle]
            rwa [hloop] at h
    · rwa [if_neg hsize] at h ⊢

/-! ### All calls -/

/-- What the calls make of a stage that stands for `bytes`. -/
structure Run (stage : Staging) (bytes : Text) (calls : List AppendCall) (last : Staging)
    (ends : List (Ended Unit)) : Prop where
  limit : last.bufferLimit = stage.bufferLimit
  maxSize : last.maxSize = stage.maxSize
  sound : last.Sound (bytes ++ (calls.map AppendCall.bytes).flatten)
  count : ends.length = calls.length
  refused : stage.poisoned = true →
    last.poisoned = true ∧ ∀ ended ∈ ends, ended = .returned (.error .poisonedStage)
  accepted : last.poisoned = false → ∀ ended ∈ ends, ended = .returned (.ok ())
  poisons : ∀ before ended after, ends = before ++ ended :: after → ended ≠ .returned (.ok ()) →
    last.poisoned = true ∧ ∀ later ∈ after, later = .returned (.error .poisonedStage)

theorem Run.none (h : stage.Sound bytes) : Run stage bytes [] stage [] where
  limit := rfl
  maxSize := rfl
  sound := by
    rw [List.map_nil, List.flatten_nil, List.append_nil]
    exact h
  count := rfl
  refused := fun hpoisoned => ⟨hpoisoned, fun _ h => by cases h⟩
  accepted := fun _ _ h => by cases h
  poisons := fun before _ _ heq => by cases before <;> cases heq

theorem Run.cons {middle : Staging} {ends : List (Ended Unit)}
    (hfirst : Appended stage bytes call middle ended)
    (hrest : Run middle (bytes ++ call.bytes) calls last ends) :
    Run stage bytes (call :: calls) last (ended :: ends) where
  limit := hrest.limit.trans hfirst.limit
  maxSize := hrest.maxSize.trans hfirst.maxSize
  sound := by
    rw [List.map_cons, List.flatten_cons, ← List.append_assoc]
    exact hrest.sound
  count := congrArg Nat.succ hrest.count
  refused := by
    intro hpoisoned
    have hended := hfirst.refused hpoisoned
    have hmiddle := hrest.refused (hfirst.poisoned (by rw [hended]; exact nofun))
    refine ⟨hmiddle.1, fun other hother => ?_⟩
    obtain rfl | hother := List.mem_cons.1 hother
    · exact hended
    · exact hmiddle.2 other hother
  accepted := by
    intro hclean other hother
    obtain rfl | hother := List.mem_cons.1 hother
    · by_contra hended
      have hmiddle := (hrest.refused (hfirst.poisoned hended)).1
      rw [hclean] at hmiddle
      cases hmiddle
    · exact hrest.accepted hclean other hother
  poisons := by
    intro before other after heq hother
    cases before with
    | nil =>
        cases heq
        exact hrest.refused (hfirst.poisoned hother)
    | cons first before =>
        cases heq
        exact hrest.poisons before other after rfl hother

/-- **All calls end**, within a number of rounds that their bytes bound. -/
theorem appends_run (h : stage.Sound bytes) (hfuel : ∀ call ∈ calls, call.bytes.length < fuel) :
    ∃ last ends, appends fuel stage calls = some (last, ends)
      ∧ Run stage bytes calls last ends := by
  induction calls generalizing stage bytes with
  | nil => exact ⟨stage, [], rfl, .none h⟩
  | cons call rest ih =>
      obtain ⟨middle, ended, happend, hfirst⟩ := append_appended h (hfuel call List.mem_cons_self)
      obtain ⟨last, ends, hmore, hrest⟩ :=
        ih hfirst.sound fun other hother => hfuel other (List.mem_cons_of_mem _ hother)
      refine ⟨last, ended :: ends, ?_, Run.cons hfirst hrest⟩
      rw [appends, happend]
      dsimp only
      rw [hmore]
      rfl

theorem appends_more {ends : List (Ended Unit)} (h : appends fuel stage calls = some (last, ends))
    (hle : fuel ≤ more) : appends more stage calls = some (last, ends) := by
  induction calls generalizing stage last ends with
  | nil => exact h
  | cons call rest ih =>
      rw [appends] at h ⊢
      cases happend : append fuel stage call with
      | none =>
          rw [happend] at h
          cases h
      | some result =>
          obtain ⟨middle, ended⟩ := result
          rw [happend] at h
          rw [append_more happend hle]
          dsimp only at h ⊢
          obtain ⟨⟨last', ends'⟩, hrest, heq⟩ := Option.map_eq_some_iff.1 h
          rw [ih hrest]
          exact congrArg some heq

theorem sound_new (id : Uuid) (bufferLimit maxSize : Nat) (hlimit : 1 ≤ bufferLimit) :
    (new id bufferLimit maxSize).Sound [] where
  room := hlimit
  peak := Nat.zero_le _
  inStep := fun _ => ⟨rfl, rfl, rfl, Nat.zero_le _⟩

/-! ### The end -/

theorem prepare_poisoned (sha256 : Text → Text) (h : stage.poisoned = true) (input : PrepareInput) :
    (stage.prepare sha256 input).2 = .returned (.error .poisonedStage) := by
  rw [prepare, if_pos h]

/-- A job that succeeds has put the whole content under its final name. -/
theorem prepareJob_ok {sha256 : Text → Text} {input : PrepareInput} {token : Token}
    (h : stage.prepareJob sha256 input = (last, .ok token)) :
    last.content = stage.content ++ stage.buffer ∧ last.directory = .blobs
      ∧ token = ⟨stage.id, stage.size, sha256 stage.hashed⟩ := by
  rw [prepareJob] at h
  split at h
  · cases h
  · split at h
    · cases h
    · dsimp only at h
      split at h
      · cases h
      · split at h
        · cases h
        · split at h
          · cases h
          · split at h
            · cases h
            · split at h
              · cases h
              · cases h
                exact ⟨congrArg (stage.content ++ ·) List.take_length, rfl, rfl⟩

theorem prepare_ok {sha256 : Text → Text} {input : PrepareInput} {token : Token}
    (h : stage.prepare sha256 input = (last, .returned (.ok token))) :
    stage.poisoned = false ∧ stage.prepareJob sha256 input = (last, .ok token) := by
  rw [prepare] at h
  cases hpoisoned : stage.poisoned with
  | true =>
      rw [if_pos hpoisoned] at h
      cases h
  | false =>
      rw [if_neg (by rw [hpoisoned]; exact Bool.false_ne_true)] at h
      generalize stage.prepareJob sha256 input = job at h ⊢
      obtain ⟨after, result⟩ := job
      dsimp only at h
      cases hcancelled : input.cancelled with
      | true =>
          rw [hcancelled] at h
          cases h
      | false =>
          rw [hcancelled] at h
          cases h
          exact ⟨rfl, rfl⟩

/-- **Staging keeps bytes, size and hash in step.** Whatever becomes of each write, all calls end and
the buffer stays within its limit. If `prepare` succeeds, so has every call, and the file among the
blobs holds their bytes, with the size and the hash that the token says; a call that fails or is
cancelled refuses all that come after it. -/
theorem staging_in_step (sha256 : Text → Text) (id : Uuid) (bufferLimit maxSize : Nat)
    (hlimit : 1 ≤ bufferLimit) (calls : List AppendCall) :
    ∃ rounds stage ends,
      (∀ fuel, rounds ≤ fuel →
        (new id bufferLimit maxSize).appends fuel calls = some (stage, ends))
        ∧ ends.length = calls.length
        ∧ stage.peak ≤ bufferLimit
        ∧ (∀ input last token, stage.prepare sha256 input = (last, .returned (.ok token)) →
          (∀ ended ∈ ends, ended = .returned (.ok ()))
            ∧ last.directory = .blobs
            ∧ last.content = (calls.map AppendCall.bytes).flatten
            ∧ token.size = last.content.length
            ∧ token.size ≤ maxSize
            ∧ token.hash = sha256 last.content)
        ∧ ∀ before ended after, ends = before ++ ended :: after → ended ≠ .returned (.ok ()) →
          (∀ later ∈ after, later = .returned (.error .poisonedStage))
            ∧ ∀ input, (stage.prepare sha256 input).2 = .returned (.error .poisonedStage) := by
  obtain ⟨rounds, hrounds⟩ : ∃ rounds, ∀ call ∈ calls, call.bytes.length < rounds := by
    refine ⟨(calls.map AppendCall.bytes).flatten.length + 1, fun call hcall => ?_⟩
    exact Nat.lt_succ_of_le (List.sublist_flatten_of_mem (List.mem_map_of_mem hcall)).length_le
  obtain ⟨stage, ends, happends, hrun⟩ := appends_run (sound_new id bufferLimit maxSize hlimit) hrounds
  have hmax : stage.maxSize = maxSize := hrun.maxSize
  refine ⟨rounds, stage, ends, fun fuel => appends_more happends, hrun.count, ?_, ?_, ?_⟩
  · have hpeak := hrun.sound.peak
    rwa [hrun.limit] at hpeak
  · intro input last token hprepare
    obtain ⟨hclean, hjob⟩ := prepare_ok hprepare
    obtain ⟨hcontent, hdirectory, rfl⟩ := prepareJob_ok hjob
    have hin := hrun.sound.inStep hclean
    rw [hin.whole, List.nil_append] at hcontent
    have hsize := hin.size
    have hhashed := hin.hashed
    rw [List.nil_append, ← hcontent] at hsize hhashed
    refine ⟨hrun.accepted hclean, hdirectory, hcontent, hsize, ?_, congrArg sha256 hhashed⟩
    rw [← hmax]
    exact hin.bounded
  · intro before ended after heq hended
    obtain ⟨hpoisoned, hafter⟩ := hrun.poisons before ended after heq hended
    exact ⟨hafter, prepare_poisoned sha256 hpoisoned⟩

/-- A write that fails while the second call fills the buffer. -/
def tornCalls : List AppendCall :=
  [{ bytes := ascii "abc" }, { bytes := ascii "de", writes := [.failed 2 .io] }, { bytes := ascii "f" }]

theorem staging_in_step_torn :
    ∃ rounds stage ends,
      (∀ fuel, rounds ≤ fuel → (new Sample.blobId 4 10).appends fuel tornCalls = some (stage, ends))
        ∧ ends.length = 3
        ∧ stage.peak ≤ 4 := by
  obtain ⟨rounds, stage, ends, hall, hcount, hpeak, -⟩ :=
    staging_in_step (fun text => text) Sample.blobId 4 10 (by decide) tornCalls
  exact ⟨rounds, stage, ends, hall, hcount, hpeak⟩

example : ((new Sample.blobId 4 10).appends 9 tornCalls).map (fun result => result.1.content)
    = some (ascii "ab") := by decide +kernel

/-! ### The same calls as their owner sees them -/

/-- A stage and its file are those of a `StagedMessage`. -/
structure Stands (stage : Staging) (message : StagedMessage) : Prop where
  limit : stage.bufferLimit = message.bufferLimit
  maxSize : stage.maxSize = message.maxSize
  size : stage.size = message.size
  hashed : stage.hashed = message.hashed
  poisoned : stage.poisoned = message.poisoned
  buffer : message.poisoned = false → stage.buffer = message.buffer

theorem Stands.failed {message : StagedMessage} (h : Stands stage message)
    (hframe : last = { stage with
      poisoned := true, buffer := last.buffer, content := last.content, peak := last.peak }) :
    Stands last message.poison where
  limit := by rw [hframe]; exact h.limit
  maxSize := by rw [hframe]; exact h.maxSize
  size := by rw [hframe]; exact h.size
  hashed := by rw [hframe]; exact h.hashed
  poisoned := by rw [hframe]; rfl
  buffer := nofun

/-- What is in the file when the loop is stopped. -/
theorem Advanced.torn (h : Advanced stage bytes last ended) :
    ∃ n, last.content = stage.content ++ (stage.buffer ++ bytes).take n := by
  obtain ⟨written, hwritten⟩ := h.grown
  have hprefix := h.reached
  rw [← hwritten, List.prefix_append_right_inj] at hprefix
  exact ⟨written.length, by rw [← hwritten, ← List.prefix_iff_eq_take.1 hprefix]⟩

/-- A call, write by write, is one that `StagedMessage` makes with some fault. -/
theorem append_stands {message : StagedMessage} (h : Stands stage message)
    (hroom : stage.buffer.length < stage.bufferLimit) (hfuel : call.bytes.length < fuel) :
    ∃ last ended fault, append fuel stage call = some (last, ended)
      ∧ Stands last (message.append call.bytes (fault.map Prod.fst)).1
      ∧ last.content = stage.content ++ message.reaching call.bytes fault
      ∧ ∀ result, ended = .returned result →
        ((message.append call.bytes (fault.map Prod.fst)).2.map fun _ => ()) = result := by
  rw [append]
  by_cases hpoisoned : stage.poisoned = true
  · have hmessage : message.poisoned = true := h.poisoned.symm.trans hpoisoned
    refine ⟨stage, _, none, if_pos hpoisoned, ?_, ?_, ?_⟩
    · rw [StagedMessage.append, if_pos hmessage]
      exact h
    · rw [StagedMessage.reaching, if_pos (Or.inl hmessage), List.append_nil]
    · intro result hresult
      cases hresult
      rw [StagedMessage.append, if_pos hmessage]
      rfl
  · have hmessage : ¬ message.poisoned = true := by rwa [← h.poisoned]
    rw [if_neg hpoisoned]
    have hbuffer : stage.buffer = message.buffer := h.buffer (Bool.eq_false_iff.2 hmessage)
    by_cases hsize : stage.size + call.bytes.length ≤ stage.maxSize
    · have hsize' : message.size + call.bytes.length ≤ message.maxSize := by
        rwa [← h.size, ← h.maxSize]
      have hreach : ¬ (message.poisoned = true ∨ message.maxSize < message.size + call.bytes.length) := by
        rw [not_or, not_lt]
        exact ⟨hmessage, hsize'⟩
      rw [if_pos hsize]
      dsimp only
      have hfault : ∀ e, message.append call.bytes (some e) = (message.poison, .error e) := by
        intro e
        rw [StagedMessage.append, if_neg hmessage, dif_pos hsize']
      by_cases hhit : call.hit = true
      · refine ⟨_, _, some (.io, 0), if_pos hhit, ?_, ?_, ?_⟩
        · rw [Option.map_some, hfault]
          exact h.failed rfl
        · rw [StagedMessage.reaching, if_neg hreach]
          exact (List.append_nil _).symm
        · intro result hresult
          cases hresult
          rw [Option.map_some, hfault]
          rfl
      · rw [if_neg hhit]
        obtain ⟨last, ended, hloop, hadvanced⟩ :=
          @appendLoop_advanced { stage with poisoned := true } call.bytes call.writes fuel hroom hfuel
        rw [hloop]
        have hstopped : ∀ e, Stands last (message.append call.bytes (some e)).1 := by
          intro e
          rw [hfault]
          exact h.failed hadvanced.frame
        obtain ⟨n, hn⟩ := hadvanced.torn
        have htorn : ∀ e, last.content = stage.content ++ message.reaching call.bytes (some (e, n)) := by
          intro e
          rw [StagedMessage.reaching, if_neg hreach, hn, ← hbuffer]
        match ended, hadvanced with
        | .returned (.ok ()), hadvanced =>
            obtain ⟨hcontent, hfilled⟩ := Prod.mk.inj (hadvanced.filled rfl)
            have hframe := hadvanced.frame
            have hdone : message.append call.bytes none
                = ({ message with
                    buffer := (StagedMessage.fill message.bufferLimit message.buffer call.bytes).2
                    hashed := message.hashed ++ call.bytes
                    size := message.size + call.bytes.length
                    bounded := hsize' },
                  .ok (StagedMessage.fill message.bufferLimit message.buffer call.bytes).1) := by
              rw [StagedMessage.append, if_neg hmessage, dif_pos hsize']
            refine ⟨_, _, none, rfl, ?_, ?_, ?_⟩
            · rw [Option.map_none, hdone]
              refine ⟨?_, ?_, ?_, ?_, (Bool.eq_false_iff.2 hmessage).symm, fun _ => ?_⟩
              · rw [hframe]
                exact h.limit
              · rw [hframe]
                exact h.maxSize
              · rw [hframe]
                exact congrArg (· + call.bytes.length) h.size
              · rw [hframe]
                exact congrArg (· ++ call.bytes) h.hashed
              · change last.buffer = _
                rw [hfilled, ← h.limit, ← hbuffer]
            · rw [StagedMessage.reaching, if_neg hreach, ← h.limit, ← hbuffer]
              exact hcontent
            · intro result hresult
              cases hresult
              rw [Option.map_none, hdone]
              rfl
        | .returned (.error e), _ =>
            refine ⟨last, _, some (e, n), rfl, hstopped e, htorn e, ?_⟩
            intro result hresult
            cases hresult
            rw [Option.map_some, hfault]
            rfl
        | .cancelled, _ =>
            exact ⟨last, _, some (.io, n), rfl, hstopped .io, htorn .io, nofun⟩
    · have hsize' : ¬ message.size + call.bytes.length ≤ message.maxSize := by
        rwa [← h.size, ← h.maxSize]
      rw [if_neg hsize]
      refine ⟨_, _, none, rfl, ?_, ?_, ?_⟩
      · rw [StagedMessage.append, if_neg hmessage, dif_neg hsize']
        exact h.failed rfl
      · rw [StagedMessage.reaching, if_pos (Or.inr (Nat.lt_of_not_le hsize')), List.append_nil]
      · intro result hresult
        cases hresult
        rw [StagedMessage.append, if_neg hmessage, dif_neg hsize']
        rfl

end Rustymail.Staging
