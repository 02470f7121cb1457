import Rustymail.Proof.Canonical
import Rustymail.Proof.PlainText
import Rustymail.Proof.SessionLemmas
import Rustymail.Server.Startup

/-!
# A validated configuration suits what it starts

`Config::validate` bounds its numbers in its own words, and the store, the queue, an acceptance and
the server each bound what they are given again. Whatever passes the first passes all the others, and
no number on the way outgrows its type.
-/

namespace Rustymail

open Checked Rustymail.Core

/-! ### What validation leaves -/

/-- What a configuration says about hashing. -/
structure Core.Authentication.Hashing (settings : Core.Authentication) : Prop where
  memory : 65536 ≤ settings.argon2MemoryKib
  iterations : 3 ≤ settings.argon2Iterations
  lanes : 1 ≤ settings.argon2Lanes
  budget : settings.argon2MemoryKib * settings.concurrency ≤ 256 * 1024

namespace Core.Config

variable {config : Config}

/-- What the components need of a configuration. -/
structure Suits (config : Config) : Prop where
  limits : Server.Limits.Valid config.limits
  slots : 0 < config.limits.ingestConcurrency
  recipients : config.limits.recipientsPerMessage ≤ 100
  cache : config.store.writerCacheKib ≤ 65536
  concurrency : 1 ≤ config.delivery.concurrency ∧ config.delivery.concurrency ≤ batch
  perDomain : 1 ≤ config.delivery.perDomainConcurrency
    ∧ config.delivery.perDomainConcurrency ≤ config.delivery.concurrency
  batchSize : 1 ≤ config.delivery.batchSize ∧ config.delivery.batchSize ≤ batch
  schedule : config.delivery.retrySeconds ≠ [] ∧ config.delivery.retrySeconds.length ≤ 32
  retries : ∀ n ∈ config.delivery.retrySeconds, 1 ≤ n ∧ n ≤ 86400
  jitter : config.delivery.retryJitterPercent ≤ 50
  maxAge : 1 ≤ config.delivery.maxAgeSeconds ∧ config.delivery.maxAgeSeconds ≤ 604800

theorem u64_of {n : Nat} (h : n < 2 ^ 64) : u64 n = some n := fit_of h

theorem i64_of {n : Nat} (h : n < 2 ^ 63) : i64 n = some n := fit_of h

theorem sum_fits {l : Server.Limits} (h : l.messageBytes ≤ 25 * 1024 * 1024) :
    u64 (l.messageBytes + Server.localDeliveryOverheadBytes)
      = some (l.messageBytes + Server.localDeliveryOverheadBytes) := by
  apply u64_of
  unfold Server.localDeliveryOverheadBytes
  omega

/-- With the sum as the machine computes it, or without: the limits are judged alike. -/
theorem validateLimits_eq_ok_iff {l : Server.Limits} :
    validateLimits l = .ok () ↔ l.validate = .ok () := by
  unfold validateLimits Server.Limits.validate
  simp only [bind_eq_ok, require_eq_ok, found_eq_ok]
  constructor
  · rintro ⟨_, h1, _, h2, _, h3, _, h4, _, h5, _, h6, _, h7, _, h8, needed, hneeded, hroom⟩
    rw [sum_fits h3.2] at hneeded
    obtain rfl := Option.some.inj hneeded
    exact ⟨(), h1, (), h2, (), h3, (), h4, (), h5, (), h6, (), h7, h8, hroom.1,
      Int.ofNat_le.2 hroom.2⟩
  · rintro ⟨_, h1, _, h2, _, h3, _, h4, _, h5, _, h6, _, h7, h8, hroom, hmax⟩
    exact ⟨(), h1, (), h2, (), h3, (), h4, (), h5, (), h6, (), h7, (), h8, _, sum_fits h3.2, hroom,
      Int.ofNat_le.1 hmax⟩

/-- No configuration makes an operation of `validate` overflow. -/
theorem validate_avoids_overflow (config : Config) : Avoids .overflow config.validate := by
  have hdemand : ∀ (condition : Prop) [Decidable condition] (reason : String),
      Avoids ConfigError.overflow (demand condition reason) :=
    fun _ _ _ => .require (by simp)
  have hlisteners : ∀ addresses, Avoids ConfigError.overflow (validateListeners addresses) := by
    intro addresses
    induction addresses with
    | nil => exact .ok ()
    | cons address others ih =>
        exact .bind (hdemand _ _) fun _ _ => .bind (hdemand _ _) fun _ _ => ih
  have hnames : Avoids .overflow config.validateNames :=
    .bind (hdemand _ _) fun _ _ => .bind (hdemand _ _) fun _ _ => .bind (hdemand _ _) fun _ _ =>
      .bind (hdemand _ _) fun _ _ => .bind (hlisteners _) fun _ _ => hdemand _ _
  have hlimits : Avoids .overflow (validateLimits config.limits) := by
    refine .bind (hdemand _ _) fun _ _ => .bind (hdemand _ _) fun _ _ => ?_
    refine .bind (hdemand _ _) fun _ hbytes => ?_
    refine .bind (hdemand _ _) fun _ _ => .bind (hdemand _ _) fun _ _ => ?_
    refine .bind (hdemand _ _) fun _ _ => .bind (hdemand _ _) fun _ _ => ?_
    refine .bind (hdemand _ _) fun _ _ => ?_
    rw [sum_fits (require_eq_ok.1 hbytes).2]
    exact .bind (.ok _) fun _ _ => hdemand _ _
  have hauthentication : Avoids .overflow (validateAuthentication config.authentication) := by
    refine .bind (hdemand _ _) fun _ hmemory => .bind (hdemand _ _) fun _ hcount => ?_
    have hproduct : config.authentication.argon2MemoryKib * config.authentication.concurrency
        ≤ 1048576 * 2 :=
      Nat.mul_le_mul (require_eq_ok.1 hmemory).1.2 (require_eq_ok.1 hcount).1.2
    rw [u64_of (by omega)]
    exact .bind (.ok _) fun _ _ => hdemand _ _
  have hdelivery : Avoids .overflow (validateDelivery config.delivery) :=
    .bind (hdemand _ _) fun _ _ => .bind (hdemand _ _) fun _ _ => hdemand _ _
  exact .bind hnames fun _ _ => .bind hlimits fun _ _ => .bind (hdemand _ _) fun _ _ =>
    .bind (hdemand _ _) fun _ _ => .bind (hdemand _ _) fun _ _ => .bind (hdemand _ _) fun _ _ =>
      .bind hauthentication fun _ _ => .bind hdelivery fun _ _ => .bind (hdemand _ _) fun _ _ =>
        .bind (hdemand _ _) fun _ _ => hdemand _ _

theorem validate_parts (h : config.validate = .ok ()) :
    config.validateNames = .ok () ∧ config.limits.validate = .ok ()
      ∧ config.store.writerCacheKib ≤ 65536 ∧ validateDelivery config.delivery = .ok () := by
  unfold validate at h
  simp only [bind_eq_ok, require_eq_ok] at h
  obtain ⟨_, hnames, _, hlimits, _, -, _, -, _, -, _, hcache, _, -, _, hdelivery, -⟩ := h
  exact ⟨hnames, validateLimits_eq_ok_iff.1 hlimits, hcache.2, hdelivery⟩

theorem hashing_of_validate (h : config.validate = .ok ()) : config.authentication.Hashing := by
  unfold validate at h
  simp only [bind_eq_ok, require_eq_ok] at h
  obtain ⟨_, -, _, -, _, -, _, -, _, -, _, -, _, hauthentication, -⟩ := h
  unfold validateAuthentication at hauthentication
  simp only [bind_eq_ok, require_eq_ok, found_eq_ok] at hauthentication
  obtain ⟨_, ⟨hmemory, hiterations, hlanes⟩, _, -, memory, hproduct, hbudget⟩ := hauthentication
  refine ⟨hmemory.1, hiterations.1, hlanes.1, ?_⟩
  unfold u64 fit at hproduct
  split_ifs at hproduct
  exact Option.some.inj hproduct ▸ hbudget

theorem suits_of_validate (h : config.validate = .ok ()) : config.Suits := by
  obtain ⟨-, hlimits, hcache, hdelivery⟩ := validate_parts h
  have hvalid := Server.Limits.valid_of_validate hlimits
  unfold Server.Limits.validate at hlimits
  simp only [bind_eq_ok, require_eq_ok] at hlimits
  obtain ⟨_, -, _, hcounts, _, -, _, -, _, hrecipients, -⟩ := hlimits
  unfold validateDelivery at hdelivery
  simp only [bind_eq_ok, require_eq_ok] at hdelivery
  obtain ⟨_, ⟨hconcurrency, hfirst, hperDomain, hbatch⟩, _, ⟨hnonempty, hlength, hretries, -⟩, hjitter,
    hage⟩ := hdelivery
  exact
    { limits := hvalid
      slots := (hcounts _ (by simp)).1
      recipients := hrecipients.2
      cache := hcache
      concurrency := hconcurrency
      perDomain := ⟨hfirst, hperDomain⟩
      batchSize := hbatch
      schedule := ⟨hnonempty, hlength⟩
      retries := fun n hn => ⟨Nat.le_trans (by omega) (hretries n hn).1, (hretries n hn).2⟩
      jitter := hjitter
      maxAge := ⟨Nat.le_trans (by omega) hage.1, hage.2⟩ }

/-! ### The store -/

/-- The derived options are those of the model of an open store. -/
theorem Suits.storeOptions (h : config.Suits) :
    config.storeOptions = some
      { maxMessageBytes := config.limits.messageBytes + Server.localDeliveryOverheadBytes
        streamBufferBytes := config.limits.streamBufferBytes
        diskReserveBytes := config.limits.diskReserveBytes
        diskReservePercent := config.limits.diskReservePercent
        temporaryReservedBytes := config.limits.temporaryReservedBytes
        cacheKib := config.store.writerCacheKib } := by
  unfold Config.storeOptions
  rw [sum_fits h.limits.message.2]
  rfl

theorem Suits.check (h : config.Suits) {options : OpenOptions}
    (hoptions : config.storeOptions = some options) : options.check = .ok () := by
  rw [h.storeOptions] at hoptions
  obtain rfl := Option.some.inj hoptions
  have hmessage := h.limits.message
  have hbuffer := h.limits.buffer
  have hpercent := h.limits.percent
  have hreserved := h.limits.reserved
  have hcache := h.cache
  apply if_neg
  unfold Server.localDeliveryOverheadBytes at hreserved ⊢
  dsimp only
  omega

/-- The store opens under the limits that a DATA transaction reserves by. -/
theorem opened_eq_storeOptions (h : config.validate = .ok ()) {options : OpenOptions}
    (hoptions : config.storeOptions = some options) (hcheck : options.check = .ok ()) :
    options.opened hcheck = Server.storeOptions config.limits (validate_parts h).2.1 := by
  rw [(suits_of_validate h).storeOptions] at hoptions
  obtain rfl := Option.some.inj hoptions
  rfl

/-- There is room for a reservation, and so for a permit. -/
theorem Suits.permit (h : config.Suits) : ∃ slots, config.slots = some slots ∧ 1 ≤ slots := by
  unfold Config.slots
  rw [h.storeOptions]
  dsimp only [Option.bind_eq_bind, Option.bind_some]
  have hpositive : 0 < config.limits.messageBytes + Server.localDeliveryOverheadBytes :=
    Nat.add_pos_left (by have := h.limits.message; omega) _
  rw [if_neg (Nat.ne_of_gt hpositive)]
  refine ⟨_, rfl, ?_⟩
  have hroom := Nat.div_pos h.limits.reserved hpositive
  have hcount := h.slots
  exact Nat.le_min.2 ⟨hroom, hcount⟩

/-! ### The queue -/

theorem Suits.policy (h : config.Suits) : config.queuePolicy.Valid :=
  ⟨h.concurrency, h.perDomain, (by decide : 1 ≤ 300 ∧ 300 ≤ 3600), h.schedule.1, h.schedule.2, h.retries, h.jitter⟩

end Core.Config

namespace QueuePolicy

variable {policy : QueuePolicy}

theorem Valid.leaseMs (h : policy.Valid) : policy.leaseMs = some (policy.leaseSeconds * 1000) := by
  have hseconds := h.2.2.1
  unfold QueuePolicy.leaseMs
  rw [Config.u64_of (by omega)]
  exact Config.i64_of (by omega)

/-- A valid policy keeps its delays small: every operation gives what it gives on integers. -/
theorem Valid.machineDelayMs (h : policy.Valid) (random : Text → Nat → Nat) (id : Text)
    (attempts : Nat) :
    (policy.machineDelayMs (random id attempts) attempts).map Int.ofNat
      = some (policy.delayMs random id attempts) := by
  obtain ⟨-, -, -, hnonempty, -, hseconds, hjitter⟩ := h
  have hlength := List.length_pos_iff.2 hnonempty
  have hindex : min (attempts - 1) (policy.retrySeconds.length - 1) < policy.retrySeconds.length := by
    omega
  unfold QueuePolicy.machineDelayMs QueuePolicy.delayMs
  rw [if_neg hnonempty]
  simp only [Option.bind_eq_bind, Option.bind_some, List.getD_eq_getElem?_getD,
    List.getElem?_eq_getElem hindex, Option.getD_some]
  have hbase := (hseconds _ (List.getElem_mem hindex)).2
  generalize policy.retrySeconds[min (attempts - 1) (policy.retrySeconds.length - 1)] = seconds
    at hbase
  have hproduct : seconds * 1000 * policy.jitterPercent ≤ 86400 * 1000 * 50 :=
    Nat.mul_le_mul (Nat.mul_le_mul_right 1000 hbase) hjitter
  have hspread : seconds * 1000 * policy.jitterPercent / 100 ≤ 86400 * 500 :=
    Nat.div_le_of_le_mul (by omega)
  rw [Config.u64_of (by omega), Option.bind_some, Config.u64_of (by omega), Option.bind_some]
  generalize seconds * 1000 * policy.jitterPercent / 100 = spread at hspread
  have hrandom : random id attempts % (spread + 1) < spread + 1 := Nat.mod_lt _ (Nat.succ_pos spread)
  rw [Config.u64_of (by omega), Option.bind_some, Config.u64_of (by omega), Option.bind_some,
    Config.i64_of (by omega)]
  rfl

end QueuePolicy

/-! ### Acceptance -/

namespace Core.Config

variable {config : Config}

/-- The acceptance of an envelope passes every argument check of `accept_inner`, if only the message
has been staged in this store, and its lifetime keeps its value in the queue's columns. -/
def Accepts (config : Config) (envelope : Server.Envelope) : Prop :=
  ∀ (session : Nat) (operation : Uuid) (message : PreparedMessage)
    (identity : Option SubmissionIdentity) (store : Rustymail.Store),
    let request := Server.acceptRequest config.transactions session operation envelope message identity
    (validAcceptance store request.message request.plan request.relay ↔ message.root = store.root)
      ∧ ∀ relay ∈ request.relay, relay.ageColumn = some relay.maxAgeSeconds
        ∧ relay.lifetimeMs = some (relay.maxAgeSeconds * 1000)

/-- There is a relay acceptance just if there are remote recipients, and it is for all of them. -/
theorem relayAcceptance_cases (config : Server.Config) (remote : List Address) (body : Body) :
    (remote = [] ∧ Server.relayAcceptance config remote body = none)
      ∨ ∃ relay, remote ≠ [] ∧ Server.relayAcceptance config remote body = some relay
        ∧ relay.recipients = remote ∧ relay.maxAgeSeconds = config.maxAgeSeconds := by
  unfold Server.relayAcceptance
  cases remote with
  | nil => exact Or.inl ⟨rfl, rfl⟩
  | cons address rest => exact Or.inr ⟨_, by simp, rfl, rfl, rfl⟩

theorem Suits.accepts (h : config.Suits) {envelope : Server.Envelope}
    (hsome : envelope.recipients ≠ [])
    (hfew : envelope.recipients.length ≤ config.limits.recipientsPerMessage) :
    config.Accepts envelope := by
  intro session operation message identity store
  have hpositive := List.length_pos_iff.2 hsome
  have hmost := h.recipients
  dsimp only [Server.acceptRequest]
  rw [List.partition_eq_filter_filter]
  have hall := envelope.recipients.length_eq_length_filter_add config.transactions.isLocal
  have hcomp : (not ∘ config.transactions.isLocal) = (! config.transactions.isLocal ·) := rfl
  rw [hcomp]
  generalize (envelope.recipients.filter fun r => !config.transactions.isLocal r) = remote at hall
  generalize envelope.recipients.filter config.transactions.isLocal = recipients at hall
  rcases relayAcceptance_cases config.transactions remote envelope.body with
    ⟨rfl, hnone⟩ | ⟨relay, hremote, hrelay, hrecipients, hage⟩
  · rw [hnone]
    refine ⟨⟨And.left, ?_⟩, by simp⟩
    intro hroot
    have hcount : relayCount none = 0 := rfl
    rw [List.length_nil] at hall
    refine ⟨hroot, operation.valid, ?_, ?_, by simp⟩
    · dsimp only
      omega
    · dsimp only
      omega
  · rw [hrelay]
    have hseconds : 1 ≤ relay.maxAgeSeconds ∧ relay.maxAgeSeconds ≤ 604800 := by
      rw [hage]
      exact h.maxAge
    constructor
    · refine ⟨And.left, ?_⟩
      intro hroot
      have hcount : relayCount (some relay) = remote.length := by
        rw [← hrecipients]
        rfl
      refine ⟨hroot, operation.valid, ?_, ?_, ?_⟩
      · dsimp only
        omega
      · dsimp only
        omega
      · intro other hother
        obtain rfl := Option.mem_some.1 hother
        rw [hrecipients]
        exact ⟨hremote, hseconds⟩
    · intro other hother
      obtain rfl := Option.mem_some.1 hother
      refine ⟨i64_of (by omega), ?_⟩
      unfold RelayAcceptance.lifetimeMs
      rw [u64_of (by omega)]
      exact i64_of (by omega)

/-- The envelopes of a session are those of DATA, whose recipients the session has counted. -/
theorem Suits.envelope (h : config.Suits) (isLocal : Text → Bool) (calls : List Server.Session.Call)
    (command : Server.Command) (envelope : Server.Envelope)
    (hbegins : ((Server.Session.past isLocal config.limits.messageBytes
      config.limits.recipientsPerMessage calls).session.apply command).2 = .beginData envelope) :
    config.Accepts envelope := by
  have htold := Server.Session.told_past isLocal config.limits.messageBytes
    config.limits.recipientsPerMessage calls
  generalize Server.Session.past isLocal config.limits.messageBytes
    config.limits.recipientsPerMessage calls = past at hbegins htold
  obtain ⟨htransaction, hsome⟩ : past.session.transaction = some envelope
      ∧ envelope.recipients ≠ [] := by
    cases command with
    | data => exact Server.Session.data_eq_beginData_iff.1 hbegins
    | mail sender size body =>
        change (past.session.mail sender size body).2 = _ at hbegins
        unfold Server.Session.mail at hbegins
        dsimp only at hbegins
        split_ifs at hbegins
    | rcpt address =>
        dsimp only [Server.Session.apply] at hbegins
        split_ifs at hbegins
    | startTls =>
        dsimp only [Server.Session.apply] at hbegins
        split_ifs at hbegins
    | _ => cases hbegins
  obtain ⟨_, _, _, _, _, _, hlength⟩ := htold.opened envelope htransaction
  exact h.accepts hsome hlength

/-! ### Notifications -/

/-- The one check that validation leaves open: whether the author of the reports is a mailbox. A relay
makes it before it starts. -/
theorem notificationPolicy_validate_iff (h : config.validate = .ok ()) :
    (∃ author, config.notificationPolicy.validate = .ok author)
      ↔ (config.localDomains.headD []).length ≤ 243 := by
  obtain ⟨hnames, -, -, -⟩ := validate_parts h
  have hage := (suits_of_validate h).maxAge
  unfold validateNames at hnames
  simp only [bind_eq_ok, require_eq_ok] at hnames
  obtain ⟨_, hhostname, _, ⟨hsome, hfew⟩, _, ⟨-, hlower⟩, -⟩ := hnames
  have hdomains : ∀ d ∈ config.localDomains, validDomain d = true := by
    intro d hd
    rw [← validDomain_lowercase]
    exact hlower _ (List.mem_map_of_mem hd)
  have hfirst : validDomain (config.localDomains.headD []) = true := by
    cases hlist : config.localDomains with
    | nil => exact absurd hlist hsome
    | cons first rest => exact hdomains first (by rw [hlist]; exact List.mem_cons_self)
  have hcut : rsplitOnce 64 (ascii "postmaster@" ++ config.localDomains.headD [])
      = some (ascii "postmaster", config.localDomains.headD []) :=
    @rsplitOnce_append 64 (ascii "postmaster") _
      (notMem_of_localByte (localByte_of_domain hfirst))
  have hlocal : validLocalPart (ascii "postmaster") = true := by decide +kernel
  have hlength : (ascii "postmaster@" ++ config.localDomains.headD []).length
      = 11 + (config.localDomains.headD []).length := List.length_append
  have haccepts : Address.accepts (ascii "postmaster@" ++ config.localDomains.headD []) = true
      ↔ (config.localDomains.headD []).length ≤ 243 := by
    unfold Address.accepts
    rw [hcut, hlength]
    dsimp only
    rw [hlocal, hfirst, Bool.and_true, Bool.and_true, decide_eq_true_eq]
    omega
  rw [← haccepts]
  unfold NotificationPolicy.validate
  simp only [bind_eq_ok, require_eq_ok, found_eq_ok]
  constructor
  · rintro ⟨author, _, -, hparse⟩
    unfold Address.parse at hparse
    split_ifs at hparse with hyes
    exact hyes
  · intro hyes
    exact ⟨_, (), ⟨hhostname, hsome, hfew, hdomains, hage⟩, dif_pos hyes⟩

end Core.Config

/-- **A validated configuration suits what it starts.** The store opens with its options, the queue
takes its policy and its batches, every envelope of its sessions can be accepted, there is a permit
for DATA, and no operation on the way overflows. -/
theorem validated_config_suits (config : Core.Config) (h : config.validate = .ok ()) :
    (∃ options, config.storeOptions = some options ∧ options.check = .ok ())
      ∧ (config.queuePolicy.Valid
        ∧ 1 ≤ config.delivery.batchSize ∧ config.delivery.batchSize ≤ batch
        ∧ config.queuePolicy.leaseMs = some (config.queuePolicy.leaseSeconds * 1000)
        ∧ ∀ (random : Text → Nat → Nat) (id : Text) (attempts : Nat),
          (config.queuePolicy.machineDelayMs (random id attempts) attempts).map Int.ofNat
            = some (config.queuePolicy.delayMs random id attempts))
      ∧ (∀ (isLocal : Text → Bool) (calls : List Server.Session.Call) (command : Server.Command)
        (envelope : Server.Envelope),
        ((Server.Session.past isLocal config.limits.messageBytes
          config.limits.recipientsPerMessage calls).session.apply command).2 = .beginData envelope →
        config.Accepts envelope)
      ∧ ∃ slots, config.slots = some slots ∧ 1 ≤ slots := by
  have hsuits := Core.Config.suits_of_validate h
  refine ⟨⟨_, hsuits.storeOptions, hsuits.check hsuits.storeOptions⟩, ?_, hsuits.envelope, hsuits.permit⟩
  exact ⟨hsuits.policy, hsuits.batchSize.1, hsuits.batchSize.2, hsuits.policy.leaseMs,
    hsuits.policy.machineDelayMs⟩

namespace Sample

theorem loopback_size : (#[127, 0, 0, 1] : Array UInt8).size = 4 := rfl

def loopback : Vector UInt8 4 := ⟨#[127, 0, 0, 1], loopback_size⟩

/-- The configuration that the repository gives as its example. -/
def config : Core.Config where
  mode := .lab
  hostname := ascii "mail.example.com"
  localDomains := [ascii "example.com"]
  dataDir := ascii "/var/lib/rustymail"
  adminSocket := ascii "/run/rustymail/admin.sock"
  listeners :=
    { smtp := ⟨.v4 loopback, 2525⟩
      submissions := ⟨.v4 loopback, 2465⟩
      submission := ⟨.v4 loopback, 2587⟩ }
  tls := ⟨ascii "/etc/rustymail/tls/fullchain.pem", ascii "/etc/rustymail/tls/privkey.pem",
    ascii "1.2", 15⟩
  limits :=
    { connections := 256
      connectionsPerIp := 8
      tlsHandshakes := 16
      messageBytes := 26214400
      headerBytes := 262144
      recipientsPerMessage := 100
      ingestConcurrency := 16
      streamBufferBytes := 16384
      diskReserveBytes := 2147483648
      diskReservePercent := 10
      temporaryReservedBytes := 419430400 }
  timeouts := ⟨300, 180, 1800, 60, 60⟩
  store := ⟨128, 8192⟩
  authentication := ⟨65536, 3, 4, 2, 16, 2⟩
  delivery :=
    { mode := .disabled
      concurrency := 16
      perDomainConcurrency := 2
      batchSize := 128
      retrySeconds := [1800, 3600, 7200, 14400]
      retryJitterPercent := 20
      maxAgeSeconds := 432000
      connectTimeoutSeconds := 30
      bannerTimeoutSeconds := 300
      commandTimeoutSeconds := 300
      dataCommandTimeoutSeconds := 120
      dataWriteTimeoutSeconds := 180
      finalReplyTimeoutSeconds := 600 }
  relay := ⟨ascii "smtp.relay.example", 465, ascii "implicit",
    ascii "/etc/rustymail/secrets/relay-password", none⟩

def resident : Address := ⟨ascii "a@example.com", by decide +kernel, by decide +kernel⟩

/-- A message at the limit of the size, and a recipient on either side. -/
def dialogue : List Server.Session.Call :=
  [.apply (.ehlo (ascii "client")), .apply (.mail none (some 26214400) (some .eightBitMime)),
    .apply (.rcpt resident), .routed resident true, .apply (.rcpt remote), .routed remote true]

def session : Server.Session :=
  (Server.Session.past (fun domain => decide (domain = ascii "example.com")) config.limits.messageBytes
    config.limits.recipientsPerMessage dialogue).session

end Sample

/-- The example configuration is valid. Its store opens, its leases last five minutes and its first
retry waits as long as the queue says, an envelope of two recipients can be accepted, and there are
fifteen permits. -/
theorem validated_config_suits_example :
    Sample.config.validate = .ok ()
      ∧ (∃ options, Sample.config.storeOptions = some options ∧ options.check = .ok ())
      ∧ Sample.config.queuePolicy.leaseMs = some 300000
      ∧ (Sample.config.queuePolicy.machineDelayMs 0 1).map Int.ofNat
        = some (Sample.config.queuePolicy.delayMs (fun _ _ => 0) [] 1)
      ∧ (∃ envelope, (Sample.session.apply .data).2 = .beginData envelope
        ∧ envelope.recipients = [Sample.resident, Sample.remote] ∧ Sample.config.Accepts envelope)
      ∧ ∃ slots, Sample.config.slots = some slots ∧ 1 ≤ slots ∧ slots = 15 := by
  have hvalid : Sample.config.validate = .ok () := by decide +kernel
  obtain ⟨hopens, ⟨-, -, -, hlease, hdelay⟩, haccepts, slots, hslots, hpermit⟩ :=
    validated_config_suits Sample.config hvalid
  have hbegun : (Sample.session.apply .data).2
      = .beginData ⟨none, [Sample.resident, Sample.remote], .eightBitMime⟩ := by
    decide +kernel
  have hfifteen : Sample.config.slots = some 15 := by decide +kernel
  refine ⟨hvalid, hopens, hlease, hdelay (fun _ _ => 0) [] 1, ?_, slots, hslots, hpermit, ?_⟩
  · exact ⟨_, hbegun, rfl, haccepts _ Sample.dialogue .data _ hbegun⟩
  · exact Option.some.inj (hslots.symm.trans hfifteen)

namespace Sample

/-- Three labels of sixty bytes and one of sixty-three. -/
def longDomain : Text :=
  List.replicate 60 97 ++ 46 :: List.replicate 60 97 ++ 46 :: List.replicate 60 97
    ++ 46 :: List.replicate 63 97

def longNamed : Core.Config := { config with localDomains := [longDomain] }

/-- A configuration that is valid and has no author for its reports. -/
theorem longNamed_has_no_author :
    longNamed.validate = .ok () ∧ ¬ ∃ author, longNamed.notificationPolicy.validate = .ok author := by
  have hvalid : longNamed.validate = .ok () := by decide +kernel
  refine ⟨hvalid, ?_⟩
  rw [Core.Config.notificationPolicy_validate_iff hvalid]
  decide +kernel

end Sample

end Rustymail
