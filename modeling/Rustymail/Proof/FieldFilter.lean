import Rustymail.Proof.FieldLemmas
import Rustymail.Proof.PrepareLemmas

/-!
# Filtering fields

The filter accepts exactly the well-formed headers and keeps exactly the fields that are to be kept;
so a message that `prepare` has filtered passes the server's filter as it is.
-/

namespace Rustymail

open Framing

namespace Client

/-- The header that `prepare` has filtered so far, and what it has written behind it. -/
def Preparing.Filtered (stored : Text) (headers : Bool) (filter : HeaderFilter) (_ : Body) : Prop :=
  ∃ (lines : List Text) (last : HeaderFilter) (kept : List Text),
    HeaderFilter.submission.retainAll (lines.map (· ++ crlf)) = some (last, kept)
      ∧ (∀ line ∈ lines, Clean line)
      ∧ if headers then last = filter ∧ stored = kept.flatten
        else ∃ body, stored = kept.flatten ++ crlf ++ body

theorem Preparing.filtered_start : Filtered [] true .submission .sevenBit :=
  ⟨[], .submission, [], rfl, fun _ hmem => (List.not_mem_nil hmem).elim, rfl, rfl⟩

theorem Preparing.filtered_retains (limits : InputLimits) : Retains limits Filtered := by
  intro stored state state' text kept hclean _ hholds hretain
  obtain ⟨lines, last, before, hbefore, hlines, hstored⟩ := hholds
  unfold Preparing.retain at hretain
  cases hin : state.headers with
  | true =>
      rw [hin] at hstored hretain
      rw [if_pos rfl] at hstored hretain
      obtain ⟨rfl, rfl⟩ := hstored
      dsimp only at hretain
      split_ifs at hretain with hlong hempty
      · cases hretain
        refine ⟨lines, _, before, hbefore, hlines, ?_⟩
        rw [if_neg Bool.false_ne_true]
        refine ⟨[], ?_⟩
        rw [if_pos rfl, hempty, List.append_nil]
      · cases hfilter : state.filter.retain (text ++ crlf) with
        | none =>
            rw [hfilter] at hretain
            cases hretain
        | some retained =>
            obtain ⟨filter, keep⟩ := retained
            rw [hfilter] at hretain
            cases hretain
            have hnext := HeaderFilter.retainAll_snoc hbefore hfilter
            refine ⟨lines ++ [text], filter, before ++ if kept then [text ++ crlf] else [], ?_, ?_, ?_⟩
            · rw [List.map_append]
              exact hnext
            · intro line hmem
              rcases List.mem_append.1 hmem with hold | hnew
              · exact hlines line hold
              · rw [List.mem_singleton.1 hnew]
                exact hclean
            · dsimp only
              rw [if_pos rfl]
              refine ⟨rfl, ?_⟩
              rw [List.flatten_append]
              cases kept with
              | true => simp
              | false => rfl
  | false =>
      rw [hin] at hstored hretain
      rw [if_neg Bool.false_ne_true] at hstored hretain
      obtain ⟨body, rfl⟩ := hstored
      cases hretain
      refine ⟨lines, last, before, hbefore, hlines, ?_⟩
      dsimp only
      rw [if_neg Bool.false_ne_true, if_pos rfl]
      exact ⟨body ++ (text ++ crlf), List.append_assoc _ _ _⟩

/-- A prepared message is a header that the filter keeps, a separator and a body. -/
theorem prepare_filtered {limits : InputLimits} {created flushed : Bool} {input : List InputRound}
    {snapshot : Snapshot} (h : prepare limits created flushed input = .ok snapshot) :
    ∃ (header : List Text) (body : Text), snapshot.bytes = header.flatMap (· ++ crlf) ++ crlf ++ body
      ∧ (∀ line ∈ header, Clean line ∧ line ≠ [])
      ∧ ∃ filter, HeaderFilter.submission.retainAll (header.map (· ++ crlf))
        = some (filter, header.map (· ++ crlf)) := by
  obtain ⟨filter, ⟨lines, last, kept, hretained, hlines, body, hbytes⟩, -⟩ :=
    prepare_holds Preparing.filtered_start (Preparing.filtered_retains limits) h
  obtain ⟨hall, -, hkept⟩ := HeaderFilter.retainAll_eq_some_iff.1 hretained
  obtain ⟨filter', hagain⟩ := @HeaderFilter.retainAll_kept _ _ _ true hretained
  rw [hkept] at hagain hbytes
  refine ⟨_, body, by rw [hbytes, List.flatMap_def], ?_, filter', hagain⟩
  intro line hmem
  have hline := Groups.mem_of_mem_sift hmem
  refine ⟨hlines line hline, ?_⟩
  rintro rfl
  obtain ⟨name, rest, hempty, -⟩ :=
    (HeaderFilter.wellFormedHeader_iff.2 hall).begins [] hline rfl
  cases name with
  | nil => cases hempty
  | cons b name => cases hempty

end Client

/-- **The filter works on fields.** On lines with their CRLF, in either mode, `retain` lets all of them
through exactly if they form a well-formed header. It then keeps the lines of the fields that are to be
kept, in order; and it keeps all of these when they go through it once more. A message that the client
has prepared goes through the filter of a submission unchanged. -/
theorem header_filter_on_fields :
    (∀ (submission : Bool) (lines : List Text),
      ((HeaderFilter.initial submission).retainAll (lines.map (· ++ crlf))).isSome
        ↔ WellFormedHeader lines)
      ∧ (∀ (submission : Bool) (lines : List Text) (filter : HeaderFilter) (kept : List Text),
        (HeaderFilter.initial submission).retainAll (lines.map (· ++ crlf)) = some (filter, kept) →
        kept = ((fields lines).filter fun field =>
            field.head?.any (HeaderFilter.keeps submission)).flatten.map (· ++ crlf)
          ∧ ∃ filter', (HeaderFilter.initial submission).retainAll kept = some (filter', kept))
      ∧ ∀ (limits : Client.InputLimits) (created flushed : Bool) (input : List Client.InputRound)
          (snapshot : Client.Snapshot),
        Client.prepare limits created flushed input = .ok snapshot →
        ∃ (header : List Text) (body : Text), snapshot.bytes = header.flatMap (· ++ crlf) ++ crlf ++ body
          ∧ (∀ line ∈ header, Clean line ∧ line ≠ [])
          ∧ ∃ filter, HeaderFilter.submission.retainAll (header.map (· ++ crlf))
            = some (filter, header.map (· ++ crlf)) := by
  refine ⟨?_, ?_, ?_⟩
  · intro submission lines
    constructor
    · intro h
      obtain ⟨⟨filter, kept⟩, hretained⟩ := Option.isSome_iff_exists.1 h
      exact (HeaderFilter.retainAll_initial hretained).1
    · intro h
      obtain ⟨filter, hretained⟩ := HeaderFilter.retainAll_wellFormed h
      rw [hretained]
      rfl
  · intro submission lines filter kept h
    exact ⟨(HeaderFilter.retainAll_initial h).2, HeaderFilter.retainAll_kept h⟩
  · intro limits created flushed input snapshot h
    exact Client.prepare_filtered h

end Rustymail
