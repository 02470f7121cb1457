import Mathlib.Tactic.Common

/-!
# Programs in dialogue with their environment

A dialogue asks questions and goes on as the answers say; it ends with a value or with an error. The
environment is free in its answers, so a statement about every answer is a statement about every
environment. What has been asked and answered so far is summed up in a state of the reader's choice.
-/

/-- A program that asks questions `Q` with answers `A`, and ends with an `α` or fails with an `ε`. -/
inductive Dialogue (Q : Type) (A : Q → Type) (ε α : Type) where
  | done (value : α)
  | failed (error : ε)
  | ask (question : Q) (next : A question → Dialogue Q A ε α)

namespace Dialogue

variable {Q : Type} {A : Q → Type} {ε ε' α β σ : Type}

def bind : Dialogue Q A ε α → (α → Dialogue Q A ε β) → Dialogue Q A ε β
  | .done value, f => f value
  | .failed error, _ => .failed error
  | .ask question next, f => .ask question fun answer => (next answer).bind f

instance : Monad (Dialogue Q A ε) where
  pure := .done
  bind := bind

theorem bind_assoc {γ : Type} (p : Dialogue Q A ε α) (f : α → Dialogue Q A ε β)
    (g : β → Dialogue Q A ε γ) : p >>= f >>= g = p >>= fun value => f value >>= g := by
  change (p.bind f).bind g = p.bind fun value => (f value).bind g
  induction p with
  | done value => rfl
  | failed error => rfl
  | ask question next ih =>
      change ask question _ = ask question _
      congr 1
      funext answer
      exact ih answer

/-- Change what a failure is called. -/
def mapError (f : ε → ε') : Dialogue Q A ε α → Dialogue Q A ε' α
  | .done value => .done value
  | .failed error => .failed (f error)
  | .ask question next => .ask question fun answer => (next answer).mapError f

/-- Fail unless the condition holds. -/
def require (p : Prop) [Decidable p] (error : ε) : Dialogue Q A ε Unit :=
  if p then .done () else .failed error

/-- Go on with the value of an option, or fail. -/
def found (error : ε) : Option α → Dialogue Q A ε α
  | some value => .done value
  | none => .failed error

/-- Ask a question whose answer is yes or no, and fail on no. -/
def insist (question : Q) (yes : A question → Bool) (error : ε) : Dialogue Q A ε Unit :=
  .ask question fun answer => if yes answer then .done () else .failed error

/-! ### Whatever the answers are -/

section Always

variable (observe : σ → (q : Q) → A q → σ) (permits : σ → Q → Prop)

/-- From this state on the dialogue asks only what is permitted, and it ends, if it does, in a state
that fits its value or its error. -/
def Always (post : α → σ → Prop) (fails : ε → σ → Prop) : Dialogue Q A ε α → σ → Prop
  | .done value, s => post value s
  | .failed error, s => fails error s
  | .ask question next, s =>
      permits s question ∧ ∀ answer, Always post fails (next answer) (observe s question answer)

variable {observe permits} {post post' : α → σ → Prop} {fails fails' : ε → σ → Prop}
  {p : Dialogue Q A ε α} {s : σ}

theorem Always.imp (h : Always observe permits post fails p s)
    (hpost : ∀ value s, post value s → post' value s)
    (hfails : ∀ error s, fails error s → fails' error s) :
    Always observe permits post' fails' p s := by
  induction p generalizing s with
  | done value => exact hpost value s h
  | failed error => exact hfails error s h
  | ask question next ih => exact ⟨h.1, fun answer => ih answer (h.2 answer)⟩

/-- **The rule of composition.** -/
theorem Always.bind {f : α → Dialogue Q A ε β} {post : β → σ → Prop}
    (h : Always observe permits (fun value s => Always observe permits post fails (f value) s)
      fails p s) :
    Always observe permits post fails (p >>= f) s := by
  change Always observe permits post fails (p.bind f) s
  induction p generalizing s with
  | done value => exact h
  | failed error => exact h
  | ask question next ih => exact ⟨h.1, fun answer => ih answer (h.2 answer)⟩

/-- Composition through what the first part promises. -/
theorem Always.then {f : α → Dialogue Q A ε β} {post : α → σ → Prop} {post' : β → σ → Prop}
    (h : Always observe permits post fails p s)
    (hnext : ∀ value s, post value s → Always observe permits post' fails (f value) s) :
    Always observe permits post' fails (p >>= f) s :=
  Always.bind (h.imp hnext fun _ _ hfails => hfails)

theorem Always.mapError {f : ε' → ε} {p : Dialogue Q A ε' α}
    (h : Always observe permits post (fun error s => fails (f error) s) p s) :
    Always observe permits post fails (p.mapError f) s := by
  induction p generalizing s with
  | done value => exact h
  | failed error => exact h
  | ask question next ih => exact ⟨h.1, fun answer => ih answer (h.2 answer)⟩

theorem Always.require {p : Prop} [Decidable p] {error : ε} {post : Unit → σ → Prop}
    (hpost : p → post () s) (hfails : ¬ p → fails error s) :
    Always observe permits post fails (Dialogue.require p error : Dialogue Q A ε Unit) s := by
  unfold Dialogue.require
  by_cases hp : p
  · rw [if_pos hp]
    exact hpost hp
  · rw [if_neg hp]
    exact hfails hp

theorem Always.found {error : ε} {option : Option α}
    (hpost : ∀ value, option = some value → post value s) (hfails : fails error s) :
    Always observe permits post fails (Dialogue.found error option : Dialogue Q A ε α) s := by
  cases option with
  | none => exact hfails
  | some value => exact hpost value rfl

theorem Always.insist {question : Q} {yes : A question → Bool} {error : ε} {post : Unit → σ → Prop}
    (hpermits : permits s question)
    (hpost : ∀ answer, yes answer = true → post () (observe s question answer))
    (hfails : ∀ answer, fails error (observe s question answer)) :
    Always observe permits post fails (Dialogue.insist question yes error) s := by
  refine ⟨hpermits, ?_⟩
  intro answer
  dsimp only
  by_cases hyes : yes answer = true
  · rw [if_pos hyes]
    exact hpost answer hyes
  · rw [if_neg hyes]
    exact hfails answer

/-- A dialogue that asks only questions of one kind, for an observer that does not care for them. -/
theorem Always.ignoring {good : Q → Prop}
    (h : Always (fun now _ _ => now) (fun (_ : Unit) q => good q) (fun _ _ => True)
      (fun _ _ => True) p ())
    (hpermits : ∀ q, good q → permits s q)
    (hignores : ∀ q, good q → ∀ answer, observe s q answer = s) :
    Always observe permits (fun _ after => after = s) (fun _ after => after = s) p s := by
  induction p with
  | done value => rfl
  | failed error => rfl
  | ask question next ih =>
      refine ⟨hpermits question h.1, ?_⟩
      intro answer
      rw [hignores question h.1 answer]
      exact ih answer (h.2 answer)

end Always

/-! ### Along one course of the dialogue -/

/-- What is left of the dialogue once these questions have been answered so. -/
inductive Reaches : Dialogue Q A ε α → List (Σ q, A q) → Dialogue Q A ε α → Prop where
  | refl (p : Dialogue Q A ε α) : Reaches p [] p
  | ask {question : Q} {next : A question → Dialogue Q A ε α} {answer : A question}
      {seen : List (Σ q, A q)} {p : Dialogue Q A ε α} :
      Reaches (next answer) seen p → Reaches (.ask question next) (⟨question, answer⟩ :: seen) p

theorem Reaches.eq_of_nil {p p' : Dialogue Q A ε α} (h : Reaches p [] p') : p' = p := by
  cases h
  rfl

/-- The answers settle what is left. -/
theorem Reaches.unique {p p' p'' : Dialogue Q A ε α} {seen : List (Σ q, A q)} (h : Reaches p seen p')
    (h' : Reaches p seen p'') : p' = p'' := by
  induction h with
  | refl p => exact h'.eq_of_nil.symm
  | ask _ ih =>
      cases h' with
      | ask hlater => exact ih hlater

theorem Reaches.snoc {p p' : Dialogue Q A ε α} {seen : List (Σ q, A q)} {question : Q}
    {answer : A question} (h : Reaches p (seen ++ [⟨question, answer⟩]) p') :
    ∃ next, Reaches p seen (.ask question next) ∧ next answer = p' := by
  induction seen generalizing p with
  | nil =>
      cases h with
      | ask hdone => exact ⟨_, .refl _, hdone.eq_of_nil.symm⟩
  | cons e seen ih =>
      cases h with
      | ask hlater =>
          obtain ⟨next, hnext, heq⟩ := ih hlater
          exact ⟨next, .ask hnext, heq⟩

theorem Always.reaches {observe : σ → (q : Q) → A q → σ} {permits : σ → Q → Prop}
    {post : α → σ → Prop} {fails : ε → σ → Prop} {p p' : Dialogue Q A ε α} {s : σ}
    {seen : List (Σ q, A q)} (h : Always observe permits post fails p s) (hseen : Reaches p seen p') :
    Always observe permits post fails p' (seen.foldl (fun s e => observe s e.1 e.2) s) := by
  induction hseen generalizing s with
  | refl p => exact h
  | ask _ ih => exact ih (h.2 _)

/-- The first answer of this kind leads to `rest`, whatever came before. -/
def Settles (kind : (q : Q) → A q → Prop) (rest : Dialogue Q A ε α) : Dialogue Q A ε α → Prop
  | .done _ => True
  | .failed _ => True
  | .ask question next => ∀ answer,
      (kind question answer → next answer = rest)
        ∧ (¬ kind question answer → Settles kind rest (next answer))

section Settles

variable {kind : (q : Q) → A q → Prop}

/-- A first part without such answers changes nothing. -/
theorem Settles.bind {p : Dialogue Q A ε α} {f : α → Dialogue Q A ε β} {rest : Dialogue Q A ε β}
    (hquiet : Always (fun s _ _ => s) (fun (_ : Unit) q => ∀ answer, ¬ kind q answer)
      (fun value _ => Settles kind rest (f value)) (fun _ _ => True) p ()) :
    Settles kind rest (p >>= f) := by
  change Settles kind rest (p.bind f)
  induction p with
  | done value => exact hquiet
  | failed error => trivial
  | ask question next ih =>
      intro answer
      refine ⟨?_, ?_⟩
      · intro hkind
        exact absurd hkind (hquiet.1 answer)
      · intro _
        exact ih answer (hquiet.2 answer)

theorem Settles.reaches {p p' rest : Dialogue Q A ε α} {seen : List (Σ q, A q)} {question : Q}
    {answer : A question} (h : Settles kind rest p) (hkind : kind question answer)
    (hfirst : ∀ e ∈ seen, ¬ kind e.1 e.2)
    (hseen : Reaches p (seen ++ [⟨question, answer⟩]) p') : p' = rest := by
  induction seen generalizing p with
  | nil =>
      cases hseen with
      | ask hdone =>
          rw [hdone.eq_of_nil]
          exact (h answer).1 hkind
  | cons e seen ih =>
      cases hseen with
      | ask hlater =>
          refine ih ((h _).2 (hfirst _ List.mem_cons_self)) ?_ hlater
          intro e' hmem
          exact hfirst e' (List.mem_cons_of_mem _ hmem)

end Settles

/-! ### Against an environment with a state -/

section Play

variable {E : Type} (asks : Q → Bool) (answer : E → (q : Q) → A q × E)

/-- Let the environment answer the questions that are put to it, up to the first other one. -/
def play : Dialogue Q A ε α → E → Dialogue Q A ε α × E
  | .done value, e => (.done value, e)
  | .failed error, e => (.failed error, e)
  | .ask question next, e =>
      if asks question then play (next (answer e question).1) (answer e question).2
      else (.ask question next, e)

variable {asks answer} {p : Dialogue Q A ε α} {e e' : E}

theorem play_ask {question : Q} (h : asks question = true) (next : A question → Dialogue Q A ε α)
    (e : E) :
    play asks answer (.ask question next) e
      = play asks answer (next (answer e question).1) (answer e question).2 := by
  rw [play, if_pos h]

/-- A first part that comes to its end. -/
theorem play_bind {f : α → Dialogue Q A ε β} {value : α}
    (h : play asks answer p e = (.done value, e')) :
    play asks answer (p >>= f) e = play asks answer (f value) e' := by
  change play asks answer (p.bind f) e = _
  induction p generalizing e with
  | done value =>
      cases h
      rfl
  | failed error => cases h
  | ask question next ih =>
      rw [play] at h
      split_ifs at h with hasks
      · rw [bind, play, if_pos hasks]
        exact ih _ h
      · cases h

theorem play_mapError {f : ε → ε'} {value : α} (h : play asks answer p e = (.done value, e')) :
    play asks answer (p.mapError f) e = (.done value, e') := by
  induction p generalizing e with
  | done value =>
      cases h
      rfl
  | failed error => cases h
  | ask question next ih =>
      rw [play] at h
      split_ifs at h with hasks
      · rw [mapError, play, if_pos hasks]
        exact ih _ h
      · cases h

end Play

/-- A first part that has come to its end leads to the second. -/
theorem Reaches.bind {p : Dialogue Q A ε α} {f : α → Dialogue Q A ε β} {seen : List (Σ q, A q)}
    {value : α} (h : Reaches p seen (.done value)) : Reaches (p >>= f) seen (f value) := by
  change Reaches (p.bind f) seen (f value)
  induction seen generalizing p with
  | nil =>
      obtain rfl := h.eq_of_nil.symm
      exact .refl _
  | cons entry seen ih =>
      cases h with
      | ask hlater => exact .ask (ih hlater)

end Dialogue
