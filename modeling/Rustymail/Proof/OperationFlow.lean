import Rustymail.Proof.ServiceLemmas

/-!
# Where an operation id can be

While a session may still refuse its message, the operation id is nowhere else: no message carries
it, and no request in the worker's channel. An operation id that is nowhere stays so.
-/

namespace Rustymail.Server

namespace Service

variable {named : List Text} {drawn : List Uuid} {s s' : Service} {key : Text}

theorem Move.extends (h : Move named s s') :
    ExtendsUnder (fun key => key ∈ s.names ∨ validId key = false) s.world.store.db.messages
      s'.world.store.db.messages := by
  cases h with
  | sessions f hfalls => exact .refl
  | store op hop =>
      refine (s.world.next_extends op).mono ?_
      rintro key (hkey | hkey)
      · rw [hop] at hkey
        cases hkey
      · exact Or.inr hkey
  | emptied => exact .refl
  | called op rest hqueue =>
      refine (s.world.next_extends op).mono ?_
      rintro key (hkey | hkey)
      · refine Or.inl (List.mem_filterMap.2 ⟨.call op, ?_, hkey⟩)
        simp [hqueue]
      · exact Or.inr hkey
  | performed request rest input hqueue answered =>
      refine (request.perform_extends input s.world).mono ?_
      rintro key (rfl | hkey)
      · refine Or.inl (List.mem_filterMap.2 ⟨.accept request, ?_, rfl⟩)
        simp [hqueue]
      · exact Or.inr hkey
  | sent n request hphase => exact .refl
  | call op hnamed => exact .refl

/-! ### A refused operation id stays refused -/

/-- Nothing carries this operation id, and no session can bring it to the worker any more. -/
structure Quiet (s : Service) (key : Text) : Prop where
  absent : ¬ s.Committed key
  unnamed : key ∉ s.names
  unpledged : ∀ n, (s.sessions n).pledge? ≠ some key

theorem pledge?_answer (p : Phase) (reply : ReplyTo) (result : Except StoreError AcceptedMessage) :
    (p.answer reply result).pledge? = p.pledge? := by
  cases p with
  | waiting operation fate =>
      cases fate with
      | awaited =>
          unfold Phase.answer
          dsimp only
          split_ifs
          · rfl
          · rfl
      | _ => rfl
  | _ => rfl

theorem Move.unnamed (h : Move named s s') (hnamed : key ∉ named) (hname : key ∉ s.names)
    (hpledge : ∀ n, (s.sessions n).pledge? ≠ some key) :
    key ∉ s'.names ∧ ∀ n, (s'.sessions n).pledge? ≠ some key := by
  cases h with
  | sessions f hfalls => exact ⟨hname, fun n h => hpledge n ((hfalls n).pledge key h)⟩
  | store op hop => exact ⟨hname, hpledge⟩
  | emptied => exact ⟨by simp [names], hpledge⟩
  | called op rest hqueue =>
      refine ⟨fun hmem => hname ?_, hpledge⟩
      unfold names at hmem ⊢
      rw [hqueue, List.filterMap_cons]
      split
      · exact hmem
      · exact List.mem_cons_of_mem _ hmem
  | performed request rest input hqueue answered =>
      refine ⟨fun hmem => hname ?_, ?_⟩
      · unfold names at hmem ⊢
        rw [hqueue]
        exact List.mem_cons_of_mem _ hmem
      · cases answered with
        | false => exact hpledge
        | true =>
            refine (Function.forall_update_iff s.sessions fun n p => p.pledge? ≠ some key).2 ⟨?_, ?_⟩
            · rw [pledge?_answer]
              exact hpledge _
            · intro n hn
              exact hpledge n
  | sent m request hphase =>
      have hne : request.plan.operationId ≠ key := by
        intro heq
        refine hpledge m ?_
        rw [hphase, ← heq]
        rfl
      refine ⟨?_, ?_⟩
      · unfold names
        rw [List.filterMap_append, List.mem_append, not_or]
        exact ⟨hname, by simpa [Request.operationId?] using Ne.symm hne⟩
      · refine (Function.forall_update_iff s.sessions fun n p => p.pledge? ≠ some key).2 ⟨?_, ?_⟩
        · intro hn
          cases hn
        · intro n hn
          exact hpledge n
  | call op hop =>
      refine ⟨?_, hpledge⟩
      unfold names
      rw [List.filterMap_append, List.mem_append, not_or]
      refine ⟨hname, ?_⟩
      intro hmem
      obtain ⟨request, hrequest, hkey⟩ := List.mem_filterMap.1 hmem
      obtain rfl := List.mem_singleton.1 hrequest
      exact hnamed (hop key hkey)

theorem Quiet.move (hq : s.Quiet key) (h : Move named s s') (hvalid : validId key = true)
    (hnamed : key ∉ named) : s'.Quiet key := by
  obtain ⟨hname, hpledge⟩ := h.unnamed hnamed hq.unnamed hq.unpledged
  refine ⟨?_, hname, hpledge⟩
  rintro ⟨m, hm, rfl⟩
  rcases h.extends.new hm with hold | hkey | hkey
  · exact hq.absent ⟨m, hold, rfl⟩
  · exact hq.unnamed hkey
  · rw [hvalid] at hkey
    cases hkey

theorem Quiet.moves (hq : s.Quiet key) (h : Moves named s s') (hvalid : validId key = true)
    (hnamed : key ∉ named) : s'.Quiet key := by
  induction h with
  | refl => exact hq
  | tail _ hlast ih => exact ih.move hlast hvalid hnamed

theorem Quiet.next (hq : s.Quiet key) (action : Action) (hvalid : validId key = true)
    (hnamed : key ∉ action.named) (hdrawn : ∀ u ∈ action.drawn, u.text ≠ key) :
    (s.next action).Quiet key := by
  rcases s.next_cases action with ⟨n, u, principal, envelope, hidle, hu, hnext⟩ | hmoves
  · rw [hnext]
    refine ⟨hq.absent, hq.unnamed,
      (Function.forall_update_iff s.sessions fun n p => p.pledge? ≠ some key).2 ⟨?_, ?_⟩⟩
    · intro hpledge
      exact hdrawn u (by simp [hu]) (by simpa [Phase.pledge?] using hpledge)
    · intro m hm
      exact hq.unpledged m
  · exact hq.moves hmoves hvalid hnamed

theorem Quiet.run (hq : s.Quiet key) (hvalid : validId key = true) (actions : List Action)
    (hnamed : key ∉ actions.flatMap Action.named)
    (hdrawn : ∀ u ∈ actions.flatMap Action.drawn, u.text ≠ key) : (s.run actions).Quiet key := by
  induction actions generalizing s with
  | nil => exact hq
  | cons action rest ih =>
      rw [List.flatMap_cons, List.mem_append, not_or] at hnamed
      have hfirst : ∀ u ∈ action.drawn, u.text ≠ key := fun u hu => hdrawn u (by simp [hu])
      refine ih (hq.next action hvalid hnamed.1 hfirst) hnamed.2 ?_
      intro u hu
      exact hdrawn u (by rw [List.flatMap_cons]; exact List.mem_append_right _ hu)

/-! ### Where the operation ids are -/

/-- The invariant of the service. `drawn` are the operation ids its sessions have drawn so far, `named`
those that other requests have brought along. -/
structure Sound (drawn : List Uuid) (named : List Text) (s : Service) : Prop where
  reachable : s.world.Reachable
  apart : ∀ u ∈ drawn, u.text ∉ named
  owned : ∀ n u, (s.sessions n).operation? = some u → u ∈ drawn
  sole : ∀ n m u, (s.sessions n).operation? = some u → (s.sessions m).operation? = some u → n = m
  names : ∀ key ∈ s.names, key ∈ named ∨ ∃ u ∈ drawn, u.text = key
  once : ∀ u ∈ drawn, s.names.count u.text ≤ 1
  keys : ∀ m ∈ s.world.store.db.messages,
    m.ingestKey ∈ named ∨ (∃ u ∈ drawn, u.text = m.ingestKey) ∨ validId m.ingestKey = false
  queued : ∀ u ∈ drawn, u.text ∈ s.names → ¬ s.Committed u.text
  clear : ∀ n u, (s.sessions n).Clear u → ¬ s.Committed u.text ∧ u.text ∉ s.names
  formed : ∀ n, (s.sessions n).Formed
  requests : ∀ request, .accept request ∈ s.queue →
    request.plan.operationId = request.reply.operation.text
  accepted : ∀ n u accepted, s.sessions n = .waiting u (.answered (.ok accepted)) →
    ∃ m ∈ s.world.store.db.messages, m.id = accepted.messageId ∧ m.ingestKey = u.text

theorem uuid_eq_of_text {u v : Uuid} (h : u.text = v.text) : u = v := by
  cases u
  cases v
  cases h
  rfl

theorem Sound.fall (h : s.Sound drawn named) {f : Nat → Phase}
    (hfalls : ∀ n, (s.sessions n).Falls (f n)) : Sound drawn named { s with sessions := f } where
  reachable := h.reachable
  apart := h.apart
  owned n u hu := h.owned n u ((hfalls n).operation u hu)
  sole n m u hn hm := h.sole n m u ((hfalls n).operation u hn) ((hfalls m).operation u hm)
  names := h.names
  once := h.once
  keys := h.keys
  queued := h.queued
  clear n u hu := h.clear n u ((hfalls n).clear u hu)
  formed n := (hfalls n).formed (h.formed n)
  requests := h.requests
  accepted n u accepted hn := h.accepted n u accepted ((hfalls n).accepted u accepted hn)

/-- The store commits under operation ids that leave the channel with it. -/
theorem Sound.commit (h : s.Sound drawn named) {w' : World} {queue' : List Request}
    (hreach : w'.Reachable) (hsub : queue'.Sublist s.queue)
    (hext : ExtendsUnder (fun key => validId key = false ∨ key ∈ s.names
        ∧ ∀ u ∈ drawn, u.text = key → key ∉ queue'.filterMap Request.operationId?)
      s.world.store.db.messages w'.store.db.messages) :
    Sound drawn named { s with world := w', queue := queue' } := by
  have hnames : ∀ key ∈ queue'.filterMap Request.operationId?, key ∈ s.names :=
    fun key hkey => (hsub.filterMap _).subset hkey
  -- a drawn id that is committed now was committed before, or has just left the channel
  have hcommitted : ∀ u : Uuid, (∃ m ∈ w'.store.db.messages, m.ingestKey = u.text) →
      s.Committed u.text ∨ (u.text ∈ s.names
        ∧ (u ∈ drawn → u.text ∉ queue'.filterMap Request.operationId?)) := by
    rintro u ⟨m, hm, hkey⟩
    rcases hext.new hm with hold | hinvalid | ⟨hname, hleft⟩
    · exact Or.inl ⟨m, hold, hkey⟩
    · rw [hkey, u.valid] at hinvalid
      cases hinvalid
    · rw [hkey] at hname hleft
      exact Or.inr ⟨hname, fun hu => hleft u hu rfl⟩
  refine
    { h with
      reachable := hreach
      names := fun key hkey => h.names key (hnames key hkey)
      once := fun u hu => ((hsub.filterMap _).count_le _).trans (h.once u hu)
      keys := ?_
      queued := ?_
      clear := ?_
      requests := fun request hrequest => h.requests request (hsub.subset hrequest)
      accepted := ?_ }
  · intro m hm
    rcases hext.new hm with hold | hinvalid | ⟨hname, -⟩
    · exact h.keys m hold
    · exact Or.inr (Or.inr hinvalid)
    · rcases h.names _ hname with hnamed | hdrawn
      · exact Or.inl hnamed
      · exact Or.inr (Or.inl hdrawn)
  · intro u hu hname hnow
    rcases hcommitted u hnow with hbefore | ⟨-, hleft⟩
    · exact h.queued u hu (hnames _ hname) hbefore
    · exact hleft hu hname
  · intro n u hclear
    obtain ⟨habsent, hunnamed⟩ := h.clear n u hclear
    refine ⟨fun hnow => ?_, fun hname => hunnamed (hnames _ hname)⟩
    rcases hcommitted u hnow with hbefore | ⟨hname, -⟩
    · exact habsent hbefore
    · exact hunnamed hname
  · intro n u accepted hn
    obtain ⟨m, hm, hid, hkey⟩ := h.accepted n u accepted hn
    exact ⟨m, hext.old hm, hid, hkey⟩

theorem names_of_head {request : Request} {rest : List Request} (hqueue : s.queue = request :: rest)
    (hkey : request.operationId? = some key) :
    s.names = key :: rest.filterMap Request.operationId? := by
  unfold names
  rw [hqueue, List.filterMap_cons, hkey]

theorem Sound.head_left (h : s.Sound drawn named) {request : Request} {rest : List Request}
    (hqueue : s.queue = request :: rest) {u : Uuid} (hu : u ∈ drawn)
    (hkey : request.operationId? = some u.text) : u.text ∉ rest.filterMap Request.operationId? := by
  intro hmem
  have hcount := h.once u hu
  rw [names_of_head hqueue hkey, List.count_cons_self] at hcount
  have hpos := List.count_pos_iff.2 hmem
  omega

/-- The worker takes the first request and commits under no other operation id. -/
theorem Sound.taken (h : s.Sound drawn named) {request : Request} {rest : List Request} {w' : World}
    (hqueue : s.queue = request :: rest) (hreach : w'.Reachable)
    (hext : ExtendsUnder (fun key => request.operationId? = some key ∨ validId key = false)
      s.world.store.db.messages w'.store.db.messages) :
    Sound drawn named { s with world := w', queue := rest } := by
  refine h.commit hreach (hqueue ▸ List.sublist_cons_self _ _) (hext.mono ?_)
  rintro key (hkey | hinvalid)
  · refine Or.inr ⟨by simp [names_of_head hqueue hkey], ?_⟩
    rintro u hu rfl
    exact h.head_left hqueue hu hkey
  · exact Or.inl hinvalid

/-- A result reaches its session. -/
theorem Sound.answered (h : s.Sound drawn named) {n : Nat} {u : Uuid}
    {result : Except StoreError AcceptedMessage} (hphase : s.sessions n = .waiting u .awaited)
    (hok : ∀ accepted, result = .ok accepted →
      ∃ m ∈ s.world.store.db.messages, m.id = accepted.messageId ∧ m.ingestKey = u.text)
    (herror : ∀ e, result = .error e → e ≠ .outcomeUnknown →
      ¬ s.Committed u.text ∧ u.text ∉ s.names) :
    Sound drawn named
      { s with sessions := Function.update s.sessions n (.waiting u (.answered result)) } := by
  have hop : ∀ m, (Function.update s.sessions n (.waiting u (.answered result)) m).operation?
      = (s.sessions m).operation? := by
    refine (Function.forall_update_iff s.sessions fun m p =>
      p.operation? = (s.sessions m).operation?).2 ⟨?_, fun m _ => rfl⟩
    rw [hphase]
    rfl
  refine
    { h with
      owned := fun m v hv => h.owned m v (by rwa [← hop m])
      sole := fun m k v hm hk => h.sole m k v (by rwa [← hop m]) (by rwa [← hop k])
      clear := ?_
      formed := ?_
      accepted := ?_ }
  · refine (Function.forall_update_iff s.sessions fun m p =>
      ∀ v, p.Clear v → ¬ s.Committed v.text ∧ v.text ∉ s.names).2 ⟨?_, fun m _ => h.clear m⟩
    intro v hv
    cases result with
    | ok accepted => exact hv.elim
    | error e =>
        obtain ⟨rfl, hknown⟩ := hv
        exact herror e rfl hknown
  · exact (Function.forall_update_iff s.sessions fun m p => p.Formed).2
      ⟨trivial, fun m _ => h.formed m⟩
  · refine (Function.forall_update_iff s.sessions fun m p =>
      ∀ v accepted, p = .waiting v (.answered (.ok accepted)) →
        ∃ m ∈ s.world.store.db.messages, m.id = accepted.messageId ∧ m.ingestKey = v.text).2
      ⟨?_, fun m _ => h.accepted m⟩
    rintro v accepted ⟨⟩
    exact hok accepted rfl

/-- The worker performs an acceptance. -/
theorem Sound.performed (h : s.Sound drawn named) {request : AcceptRequest} {rest : List Request}
    (hqueue : s.queue = .accept request :: rest) (input : WorkInput) (answered : Bool) :
    Sound drawn named
      { s with
        world := (request.perform input s.world).1
        queue := rest
        sessions :=
          if answered then
            Function.update s.sessions request.reply.session
              ((s.sessions request.reply.session).answer request.reply
                (request.perform input s.world).2)
          else s.sessions } := by
  have hperformed : request.Performed s.world (request.perform input s.world) :=
    AcceptRequest.perform_performed h.reachable
  have htaken := h.taken hqueue hperformed.reachable ((request.perform_extends input s.world).mono
    fun key hkey => hkey.imp_left fun heq => congrArg some heq.symm)
  cases answered with
  | false => exact htaken
  | true =>
      rcases answer_cases (s.sessions request.reply.session) request.reply
          (request.perform input s.world).2 with hsame | ⟨hphase, hanswer⟩
      · rw [if_pos rfl, hsame, Function.update_eq_self]
        exact htaken
      · rw [if_pos rfl, hanswer]
        have hkey := h.requests request (by simp [hqueue])
        have hname : (Request.accept request).operationId? = some request.reply.operation.text :=
          congrArg some hkey
        have hdrawn : request.reply.operation ∈ drawn :=
          h.owned request.reply.session _ (by rw [hphase]; rfl)
        refine htaken.answered hphase ?_ ?_
        · intro accepted hok
          rw [← hkey]
          exact hperformed.accepted accepted hok
        · intro e herror hknown
          constructor
          · rintro ⟨m, hm, hmkey⟩
            refine h.queued _ hdrawn ?_ ⟨m, ?_, hmkey⟩
            · rw [names_of_head hqueue hname]
              exact List.mem_cons_self
            · rw [← hperformed.refused e herror hknown]
              exact hm
          · exact h.head_left hqueue hdrawn hname

/-- A session hands its request over. -/
theorem Sound.sent (h : s.Sound drawn named) {n : Nat} {request : AcceptRequest}
    (hphase : s.sessions n = .dispatching request) :
    Sound drawn named
      { s with
        queue := s.queue ++ [.accept request]
        sessions := Function.update s.sessions n (.waiting request.reply.operation .awaited) } := by
  have hoperation : (s.sessions n).operation? = some request.reply.operation := by
    rw [hphase]
    rfl
  have hkey : request.plan.operationId = request.reply.operation.text := by
    have hformed := h.formed n
    rwa [hphase] at hformed
  obtain ⟨habsent, hunnamed⟩ := h.clear n request.reply.operation (by rw [hphase]; rfl)
  have hnames : (s.queue ++ [Request.accept request]).filterMap Request.operationId?
      = s.names ++ [request.reply.operation.text] := by
    rw [List.filterMap_append, ← hkey]
    rfl
  have hop : ∀ m, (Function.update s.sessions n
      (.waiting request.reply.operation .awaited) m).operation? = (s.sessions m).operation? := by
    refine (Function.forall_update_iff s.sessions fun m p =>
      p.operation? = (s.sessions m).operation?).2 ⟨hoperation.symm, fun m _ => rfl⟩
  refine
    { h with
      owned := fun m v hv => h.owned m v (by rwa [← hop m])
      sole := fun m k v hm hk => h.sole m k v (by rwa [← hop m]) (by rwa [← hop k])
      names := ?_
      once := ?_
      queued := ?_
      clear := ?_
      formed := ?_
      requests := ?_
      accepted := ?_ }
  · intro key hmem
    unfold Service.names at hmem
    rw [hnames, List.mem_append, List.mem_singleton] at hmem
    rcases hmem with hold | rfl
    · exact h.names key hold
    · exact Or.inr ⟨_, h.owned n _ hoperation, rfl⟩
  · intro v hv
    unfold Service.names
    rw [hnames, List.count_append, List.count_singleton]
    by_cases hsame : request.reply.operation.text = v.text
    · have hzero : s.names.count v.text = 0 := List.count_eq_zero.2 (hsame ▸ hunnamed)
      simp [hzero, hsame]
    · have hle := h.once v hv
      simpa [hsame] using hle
  · intro v hv hmem
    unfold Service.names at hmem
    rw [hnames, List.mem_append, List.mem_singleton] at hmem
    rcases hmem with hold | hnew
    · exact h.queued v hv hold
    · rw [hnew]
      exact habsent
  · intro m v hclear
    by_cases hsame : m = n
    · subst hsame
      dsimp only at hclear
      rw [Function.update_self] at hclear
      exact hclear.elim
    · dsimp only at hclear
      rw [Function.update_of_ne hsame] at hclear
      obtain ⟨hnone, hnot⟩ := h.clear m v hclear
      refine ⟨hnone, ?_⟩
      unfold Service.names
      rw [hnames, List.mem_append, List.mem_singleton, not_or]
      refine ⟨hnot, ?_⟩
      intro heq
      rw [uuid_eq_of_text heq] at hclear
      exact hsame (h.sole m n _ hclear.operation hoperation)
  · exact (Function.forall_update_iff s.sessions fun m p => p.Formed).2
      ⟨trivial, fun m _ => h.formed m⟩
  · intro request' hmem
    rcases List.mem_append.1 hmem with hold | hnew
    · exact h.requests request' hold
    · obtain rfl : request' = request := by simpa using hnew
      exact hkey
  · refine (Function.forall_update_iff s.sessions fun m p =>
      ∀ v accepted, p = .waiting v (.answered (.ok accepted)) →
        ∃ m ∈ s.world.store.db.messages, m.id = accepted.messageId ∧ m.ingestKey = v.text).2
      ⟨?_, fun m _ => h.accepted m⟩
    rintro v accepted ⟨⟩

/-- Another request enters the channel. -/
theorem Sound.call (h : s.Sound drawn named) {op : Op}
    (hop : ∀ key, op.operationId? = some key → key ∈ named) :
    Sound drawn named { s with queue := s.queue ++ [.call op] } := by
  have hnames : (s.queue ++ [Request.call op]).filterMap Request.operationId?
      = s.names ++ op.operationId?.toList := by
    rw [List.filterMap_append, List.filterMap_cons]
    cases hkey : op.operationId? with
    | none => simp [Request.operationId?, hkey, Service.names]
    | some key => simp [Request.operationId?, hkey, Service.names]
  have hnew : ∀ u ∈ drawn, u.text ∉ op.operationId?.toList := by
    intro u hu hmem
    exact h.apart u hu (hop _ (Option.mem_toList.1 hmem))
  have hsame : ∀ u ∈ drawn, u.text ∈ (s.queue ++ [Request.call op]).filterMap Request.operationId? →
      u.text ∈ s.names := by
    intro u hu hmem
    rw [hnames, List.mem_append] at hmem
    exact hmem.resolve_right (hnew u hu)
  refine
    { h with
      names := ?_
      once := ?_
      queued := fun u hu hmem => h.queued u hu (hsame u hu hmem)
      clear := ?_
      requests := ?_ }
  · intro key hmem
    unfold Service.names at hmem
    rw [hnames, List.mem_append] at hmem
    rcases hmem with hold | hkey
    · exact h.names key hold
    · exact Or.inl (hop key (Option.mem_toList.1 hkey))
  · intro u hu
    unfold Service.names
    rw [hnames, List.count_append, List.count_eq_zero.2 (hnew u hu)]
    exact h.once u hu
  · intro n u hclear
    obtain ⟨habsent, hunnamed⟩ := h.clear n u hclear
    refine ⟨habsent, fun hmem => hunnamed (hsame u ?_ hmem)⟩
    exact h.owned n u (Phase.Clear.operation hclear)
  · intro request hmem
    rcases List.mem_append.1 hmem with hold | hnew
    · exact h.requests request hold
    · cases List.mem_singleton.1 hnew

theorem Sound.move (h : s.Sound drawn named) {named' : List Text} (hmove : Move named' s s')
    (hsub : named' ⊆ named) : s'.Sound drawn named := by
  cases hmove with
  | sessions f hfalls => exact h.fall hfalls
  | store op hop =>
      refine h.commit (h.reachable.next op) (List.Sublist.refl _) ((s.world.next_extends op).mono ?_)
      rintro key (hkey | hinvalid)
      · rw [hop] at hkey
        cases hkey
      · exact Or.inl hinvalid
  | emptied => exact h.commit h.reachable (List.nil_sublist _) .refl
  | called op rest hqueue =>
      exact h.taken hqueue (h.reachable.next op) (s.world.next_extends op)
  | performed request rest input hqueue answered => exact h.performed hqueue input answered
  | sent n request hphase => exact h.sent hphase
  | call op hop => exact h.call fun key hkey => hsub (hop key hkey)

theorem Sound.moves (h : s.Sound drawn named) {named' : List Text} (hmoves : Moves named' s s')
    (hsub : named' ⊆ named) : s'.Sound drawn named := by
  induction hmoves with
  | refl => exact h
  | tail _ hlast ih => exact ih.move hlast hsub

/-- No request, message or session knows a new operation id. -/
theorem Sound.unused (h : s.Sound drawn named) {u : Uuid} (hnew : u ∉ drawn)
    (hapart : u.text ∉ named) :
    ¬ s.Committed u.text ∧ u.text ∉ s.names ∧ ∀ n, (s.sessions n).operation? ≠ some u := by
  have hother : ∀ v ∈ drawn, v.text ≠ u.text := by
    intro v hv htext
    rw [uuid_eq_of_text htext] at hv
    exact hnew hv
  refine ⟨?_, ?_, fun n hn => hnew (h.owned n u hn)⟩
  · rintro ⟨m, hm, hkey⟩
    rcases h.keys m hm with hmem | ⟨v, hv, hmem⟩ | hinvalid
    · exact hapart (hkey ▸ hmem)
    · exact hother v hv (hmem.trans hkey)
    · rw [hkey, u.valid] at hinvalid
      cases hinvalid
  · intro hmem
    rcases h.names _ hmem with hold | ⟨v, hv, hold⟩
    · exact hapart hold
    · exact hother v hv hold

/-- More operation ids become known. -/
theorem Sound.grow (h : s.Sound drawn named) {drawn' : List Uuid} {named' : List Text}
    (hnew : ∀ u ∈ drawn', u ∉ drawn ∧ u.text ∉ named)
    (hapart : ∀ u ∈ drawn ++ drawn', u.text ∉ named') :
    s.Sound (drawn ++ drawn') (named ++ named') := by
  have hunused := fun u (hu : u ∈ drawn') => h.unused (hnew u hu).1 (hnew u hu).2
  refine
    { h with
      apart := ?_
      owned := fun n u hu => List.mem_append_left _ (h.owned n u hu)
      names := ?_
      once := ?_
      keys := ?_
      queued := ?_ }
  · intro u hu hmem
    rcases List.mem_append.1 hmem with hold | hmem
    · rcases List.mem_append.1 hu with hu | hu
      · exact h.apart u hu hold
      · exact (hnew u hu).2 hold
    · exact hapart u hu hmem
  · intro key hkey
    rcases h.names key hkey with hold | ⟨u, hu, hold⟩
    · exact Or.inl (List.mem_append_left _ hold)
    · exact Or.inr ⟨u, List.mem_append_left _ hu, hold⟩
  · intro u hu
    rcases List.mem_append.1 hu with hu | hu
    · exact h.once u hu
    · rw [List.count_eq_zero.2 (hunused u hu).2.1]
      exact Nat.zero_le 1
  · intro m hm
    rcases h.keys m hm with hold | ⟨u, hu, hold⟩ | hinvalid
    · exact Or.inl (List.mem_append_left _ hold)
    · exact Or.inr (Or.inl ⟨u, List.mem_append_left _ hu, hold⟩)
    · exact Or.inr (Or.inr hinvalid)
  · intro u hu hname
    rcases List.mem_append.1 hu with hu | hu
    · exact h.queued u hu hname
    · exact absurd hname (hunused u hu).2.1

/-- A transaction starts under a new operation id. -/
theorem Sound.begun (h : s.Sound drawn named) {n : Nat} {u : Uuid} (hu : u ∈ drawn)
    (hunused : ¬ s.Committed u.text ∧ u.text ∉ s.names ∧ ∀ n, (s.sessions n).operation? ≠ some u)
    (principal : Option Principal) (envelope : Envelope) :
    Sound drawn named
      { s with sessions := Function.update s.sessions n (.receiving u principal envelope) } := by
  obtain ⟨habsent, hunnamed, hfree⟩ := hunused
  refine
    { h with
      owned := ?_
      sole := ?_
      clear := ?_
      formed := ?_
      accepted := ?_ }
  · refine (Function.forall_update_iff s.sessions fun m p => ∀ v, p.operation? = some v → v ∈ drawn).2
      ⟨?_, fun m _ => h.owned m⟩
    rintro v ⟨⟩
    exact hu
  · intro m k v hm hk
    by_cases hmn : m = n
    · by_cases hkn : k = n
      · rw [hmn, hkn]
      · subst hmn
        dsimp only at hm hk
        rw [Function.update_self] at hm
        rw [Function.update_of_ne hkn, ← hm] at hk
        exact absurd hk (hfree k)
    · dsimp only at hm hk
      rw [Function.update_of_ne hmn] at hm
      by_cases hkn : k = n
      · subst hkn
        rw [Function.update_self] at hk
        rw [← hk] at hm
        exact absurd hm (hfree m)
      · rw [Function.update_of_ne hkn] at hk
        exact h.sole m k v hm hk
  · refine (Function.forall_update_iff s.sessions fun m p =>
      ∀ v, p.Clear v → ¬ s.Committed v.text ∧ v.text ∉ s.names).2 ⟨?_, fun m _ => h.clear m⟩
    rintro v rfl
    exact ⟨habsent, hunnamed⟩
  · exact (Function.forall_update_iff s.sessions fun m p => p.Formed).2
      ⟨trivial, fun m _ => h.formed m⟩
  · refine (Function.forall_update_iff s.sessions fun m p =>
      ∀ v accepted, p = .waiting v (.answered (.ok accepted)) →
        ∃ m ∈ s.world.store.db.messages, m.id = accepted.messageId ∧ m.ingestKey = v.text).2
      ⟨?_, fun m _ => h.accepted m⟩
    rintro v accepted ⟨⟩

theorem Sound.next (h : s.Sound drawn named) (action : Action)
    (hnew : ∀ u ∈ action.drawn, u ∉ drawn ∧ u.text ∉ named)
    (hapart : ∀ u ∈ drawn ++ action.drawn, u.text ∉ action.named) :
    (s.next action).Sound (drawn ++ action.drawn) (named ++ action.named) := by
  have hgrown := h.grow hnew hapart
  rcases s.next_cases action with ⟨n, u, principal, envelope, -, hdrawn, hnext⟩ | hmoves
  · have hu : u ∈ action.drawn := by simp [hdrawn]
    rw [hnext]
    exact hgrown.begun (List.mem_append_right _ hu) (h.unused (hnew u hu).1 (hnew u hu).2) principal
      envelope
  · exact hgrown.moves hmoves (List.subset_append_right _ _)

theorem Sound.init (config : Config) (root : Text) (maxMessageBytes : Nat) :
    (Service.init config root maxMessageBytes).Sound [] [] where
  reachable := World.reachable_run root maxMessageBytes []
  apart := by simp
  owned n u hu := by cases hu
  sole n m u hn := by cases hn
  names := by simp [Service.init, Service.names]
  once := by simp
  keys := by simp [Service.init, World.init]
  queued := by simp
  clear n u hu := hu.elim
  formed n := trivial
  requests := by simp [Service.init]
  accepted n u accepted hn := by cases hn

theorem sound_run (config : Config) (root : Text) (maxMessageBytes : Nat) (actions : List Action)
    (hfresh : Fresh actions) :
    ((Service.init config root maxMessageBytes).run actions).Sound
      (actions.flatMap Action.drawn) (actions.flatMap Action.named) := by
  induction actions using List.reverseRecOn with
  | nil => exact .init config root maxMessageBytes
  | append_singleton actions action ih =>
      have hbefore := ih hfresh.of_append
      obtain ⟨hnodup, hapart⟩ := hfresh
      rw [List.flatMap_append, List.flatMap_singleton] at hnodup hapart ⊢
      rw [List.flatMap_append, List.flatMap_singleton] at hapart ⊢
      obtain ⟨-, -, hdisjoint⟩ := List.nodup_append.1 hnodup
      unfold run
      rw [Runs.run_snoc]
      refine hbefore.next action ?_ ?_
      · intro u hu
        refine ⟨fun hold => hdisjoint u hold u hu rfl, fun hmem => ?_⟩
        exact hapart u (List.mem_append_right _ hu) (List.mem_append_left _ hmem)
      · intro u hu hmem
        exact hapart u hu (List.mem_append_right _ hmem)

end Service

end Rustymail.Server
