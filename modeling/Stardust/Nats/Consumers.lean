import Mathlib.Data.Finset.Card
import Mathlib.Data.Finset.Dedup
import Stardust.Nats.Stream

/-!
# Durable consumers

A durable consumer belongs to a stream and filters its subjects; the server keeps its delivery
state. `AddConsumer` leaves a consumer alone whose filter is the one asked for, and otherwise
deletes it and creates it anew. The filters are compared as lists of one length, which is not the
same as sets once a subject is repeated.
-/

namespace Stardust.Nats

/-- How messages are acknowledged. -/
inductive AckPolicy where
  | none
  | all
  | explicit
  deriving DecidableEq, Repr

/-- Where a consumer starts. -/
inductive DeliverPolicy where
  | all
  | last
  | new
  | byStartSequence
  | byStartTime
  | lastPerSubject
  deriving DecidableEq, Repr

/-- The configuration of a consumer. -/
structure ConsumerConfig where
  durable : String
  ackPolicy : AckPolicy
  deliverPolicy : DeliverPolicy
  /-- The filter if there is a single one, empty for none. -/
  filterSubject : String
  /-- The filters if there are several. -/
  filterSubjects : List String
  /-- The server refuses both kinds of filter at once. -/
  single : filterSubject = "" ∨ filterSubjects = []
  deriving DecidableEq

variable (cfg : ConsumerConfig)

/-- The filter subjects, of either kind. -/
def ConsumerConfig.filters : List String :=
  if cfg.filterSubject = "" then cfg.filterSubjects else [cfg.filterSubject]

/-- Whether a consumer has the filters that are expected. -/
def consumerFilterMatches (subjects : List String) : Bool :=
  match subjects with
  | [] => cfg.filterSubject = "" ∧ cfg.filterSubjects.length = 0
  | [subject] =>
    cfg.filterSubject = subject ∨
      cfg.filterSubjects.length = 1 ∧ cfg.filterSubjects[0]? = some subject
  | _ =>
    if cfg.filterSubjects.length ≠ subjects.length then false
    else subjects.all fun sub => sub ∈ cfg.filterSubjects

/-- For nonempty subjects the comparison is one of lengths and of membership one way. -/
theorem consumerFilterMatches_iff {subjects : List String} (hne : ∀ x ∈ subjects, x ≠ "") :
    consumerFilterMatches cfg subjects = true ↔
      cfg.filters.length = subjects.length ∧ ∀ x ∈ subjects, x ∈ cfg.filters := by
  obtain ⟨durable, ackPolicy, deliverPolicy, filterSubject, filterSubjects, single⟩ := cfg
  unfold ConsumerConfig.filters
  rcases subjects with _ | ⟨subject, _ | ⟨subject', subjects⟩⟩
  · by_cases hempty : filterSubject = "" <;> simp [consumerFilterMatches, hempty]
  · have hsubject : subject ≠ "" := hne subject (by simp)
    by_cases hempty : filterSubject = ""
    · rcases filterSubjects with _ | ⟨filter, _ | ⟨filter', filters⟩⟩ <;>
        simp [consumerFilterMatches, hempty, hsubject.symm, eq_comm]
    · have hnil : filterSubjects = [] := single.resolve_left hempty
      simp [consumerFilterMatches, hempty, hnil, eq_comm]
  · by_cases hempty : filterSubject = ""
    · simp [consumerFilterMatches, hempty]
    · have hnil : filterSubjects = [] := single.resolve_left hempty
      simp [consumerFilterMatches, hempty, hnil]

/-- Equal lengths and inclusion one way mean equal sets exactly when, in case the one list is
included in the other, they agree in length just when they agree in the number of distinct
elements. -/
theorem length_and_subset_iff_toFinset {α : Type} [DecidableEq α] (filters subjects : List α) :
    ((filters.length = subjects.length ∧ (∀ x ∈ subjects, x ∈ filters)) ↔
        filters.toFinset = subjects.toFinset) ↔
      ((∀ x ∈ subjects, x ∈ filters) →
        (filters.length = subjects.length ↔
          filters.toFinset.card = subjects.toFinset.card)) := by
  by_cases hsub : ∀ x ∈ subjects, x ∈ filters
  · have hsubset : subjects.toFinset ⊆ filters.toFinset := by
      intro x hx
      exact List.mem_toFinset.mpr (hsub x (List.mem_toFinset.mp hx))
    have hcard : filters.toFinset = subjects.toFinset ↔
        filters.toFinset.card = subjects.toFinset.card :=
      ⟨congrArg _, fun h => (Finset.eq_of_subset_of_card_le hsubset h.le).symm⟩
    rw [hcard, and_iff_left hsub]
    exact ⟨fun h _ => h, fun h => h hsub⟩
  · have hne : filters.toFinset ≠ subjects.toFinset := by
      intro heq
      apply hsub
      intro x hx
      exact List.mem_toFinset.mp (heq ▸ List.mem_toFinset.mpr hx)
    simp [hsub, hne]

/-- The comparison is set equality exactly when, in case all that is expected is there, the two
lists agree in length just when they agree in the number of distinct subjects. -/
theorem consumerFilterMatches_set_iff {subjects : List String} (hne : ∀ x ∈ subjects, x ≠ "") :
    (consumerFilterMatches cfg subjects = true ↔ cfg.filters.toFinset = subjects.toFinset) ↔
      ((∀ x ∈ subjects, x ∈ cfg.filters) →
        (cfg.filters.length = subjects.length ↔
          cfg.filters.toFinset.card = subjects.toFinset.card)) := by
  rw [consumerFilterMatches_iff cfg hne]
  exact length_and_subset_iff_toFinset ..

/-- A consumer of two subjects. -/
def ordersConsumer : ConsumerConfig :=
  ⟨"worker", .explicit, .all, "", ["orders.new", "orders.paid"], .inl rfl⟩

/-- A consumer of one. -/
def paidConsumer : ConsumerConfig := ⟨"worker", .explicit, .all, "orders.paid", [], .inr rfl⟩

/-- Two distinct subjects are compared as a set. -/
theorem consumerFilterMatches_set_two_subjects :
    consumerFilterMatches ordersConsumer ["orders.paid", "orders.new"] = true ∧
      ordersConsumer.filters.toFinset = ["orders.paid", "orders.new"].toFinset := by
  have hne : ∀ x ∈ ["orders.paid", "orders.new"], x ≠ "" := by decide
  have h := consumerFilterMatches_set_iff ordersConsumer hne
  exact ⟨rfl, (h.mpr fun _ => by decide).mp rfl⟩

/-- A repeated subject hides that another one is missing, and one subject is not recognised when
it is asked for twice. -/
theorem consumerFilterMatches_repeated :
    consumerFilterMatches ordersConsumer ["orders.new", "orders.new"] = true ∧
      "orders.paid" ∈ ordersConsumer.filters ∧
      "orders.paid" ∉ ["orders.new", "orders.new"] ∧
      consumerFilterMatches paidConsumer ["orders.paid", "orders.paid"] = false ∧
      paidConsumer.filters.toFinset = ["orders.paid", "orders.paid"].toFinset := by
  decide

/-- A consumer as the server keeps it, with its delivery state. -/
structure Consumer (Δ : Type) where
  config : ConsumerConfig
  state : Δ
  deriving DecidableEq

/-- The consumers of a server by stream and durable name. -/
abbrev Consumers (Δ : Type) := String → String → Option (Consumer Δ)

/-- The errors of the requests of a call, each a text. A request that fails is not applied. -/
structure ConsumerFaults where
  info : Option String
  delete : Option String
  add : Option String
  deriving DecidableEq, Repr

/-- The requests about a consumer. -/
inductive ConsumerRequest where
  | consumerInfo
  | deleteConsumer
  | addConsumer
  deriving DecidableEq, Repr

namespace Consumers

variable {Δ : Type}

/-- Replace the consumer of one name. -/
def set (consumers : Consumers Δ) (streamName durableName : String)
    (consumer : Option (Consumer Δ)) : Consumers Δ :=
  Function.update consumers streamName
    (Function.update (consumers streamName) durableName consumer)

@[simp] private theorem set_self (consumers : Consumers Δ) (streamName durableName : String)
    (consumer : Option (Consumer Δ)) :
    consumers.set streamName durableName consumer streamName durableName = consumer := by
  simp [set]

/-- Ask for a consumer. -/
def consumerInfo (consumers : Consumers Δ) (fault : Option String)
    (streamName durableName : String) : Option (Consumer Δ) × Option String :=
  match fault, consumers streamName durableName with
  | some err, _ => (none, some err)
  | none, none => (none, some "nats: consumer not found")
  | none, some consumer => (some consumer, none)

/-- Delete a consumer. -/
def deleteConsumer (consumers : Consumers Δ) (fault : Option String)
    (streamName durableName : String) : Consumers Δ × Option String :=
  match fault, consumers streamName durableName with
  | some err, _ => (consumers, some err)
  | none, none => (consumers, some "nats: consumer not found")
  | none, some _ => (consumers.set streamName durableName none, none)

/-- Create a consumer with a new delivery state; one of the same name must have the same
configuration. -/
def addConsumer (fresh : Δ) (consumers : Consumers Δ) (fault : Option String)
    (streamName : String) (cfg : ConsumerConfig) : Consumers Δ × Option String :=
  match fault, consumers streamName cfg.durable with
  | some err, _ => (consumers, some err)
  | none, some consumer =>
    if consumer.config = cfg then (consumers, none)
    else (consumers, some "nats: consumer name already in use")
  | none, none => (consumers.set streamName cfg.durable (some ⟨cfg, fresh⟩), none)

end Consumers

/-- The configuration of a new consumer, in one of three shapes. -/
def consumerConfig (durableName : String) (subjects : List String) : ConsumerConfig :=
  match subjects with
  | [] => ⟨durableName, .explicit, .all, "", [], .inl rfl⟩
  | [subject] => ⟨durableName, .explicit, .all, subject, [], .inr rfl⟩
  | subject :: subject' :: subjects =>
    ⟨durableName, .explicit, .all, "", subject :: subject' :: subjects, .inl rfl⟩

/-- `strings.Contains`. -/
def contains (s substr : String) : Bool := decide (substr.toList <:+: s.toList)

private theorem consumerConfig_durable (durableName : String) (subjects : List String) :
    (consumerConfig durableName subjects).durable = durableName := by
  rcases subjects with _ | ⟨subject, _ | ⟨subject', subjects⟩⟩ <;> rfl

/-- A consumer is recognised by the subjects it was created for, whichever they are. -/
theorem consumerFilterMatches_consumerConfig (durableName : String) (subjects : List String) :
    consumerFilterMatches (consumerConfig durableName subjects) subjects = true := by
  rcases subjects with _ | ⟨subject, _ | ⟨subject', subjects⟩⟩
  · simp [consumerFilterMatches, consumerConfig]
  · simp [consumerFilterMatches, consumerConfig]
  · simpa [consumerFilterMatches, consumerConfig] using fun x hx => .inr (.inr hx)

namespace NatsConnection

variable {Δ : Type}

/-- The end of a call that creates the consumer, after the requests so far. -/
def createConsumer (fresh : Δ) (faults : ConsumerFaults) (streamName durableName : String)
    (subjects : List String) (consumers : Consumers Δ) (requests : List ConsumerRequest) :
    Option String × Consumers Δ × List ConsumerRequest :=
  let (consumers', err) := consumers.addConsumer fresh faults.add streamName
    (consumerConfig durableName subjects)
  (err, consumers', requests ++ [.addConsumer])

/-- A call of `AddConsumer`: its error, the consumers after it and its requests. -/
def addConsumer (c : NatsConnection) (fresh : Δ) (faults : ConsumerFaults)
    (streamName durableName : String) (subjects : List String) (consumers : Consumers Δ) :
    Option String × Consumers Δ × List ConsumerRequest :=
  if c.useStream = false then (some "nats: no response from stream", consumers, [])
  else if c.js = false then (some "nats: no response from stream", consumers, [])
  else
    match consumers.consumerInfo faults.info streamName durableName with
    | (some consumer, none) =>
      if consumerFilterMatches consumer.config subjects then
        (none, consumers, [.consumerInfo])
      else
        match consumers.deleteConsumer faults.delete streamName durableName with
        | (consumers', some delErr) => (some delErr, consumers', [.consumerInfo, .deleteConsumer])
        | (consumers', none) =>
          createConsumer fresh faults streamName durableName subjects consumers'
            [.consumerInfo, .deleteConsumer]
    | (_, some err) =>
      if contains err "consumer not found" then
        createConsumer fresh faults streamName durableName subjects consumers [.consumerInfo]
      else (some err, consumers, [.consumerInfo])
    | (none, none) =>
      createConsumer fresh faults streamName durableName subjects consumers [.consumerInfo]

variable {c : NatsConnection} {fresh : Δ} {faults : ConsumerFaults}
  {streamName durableName : String} {subjects : List String} {consumers : Consumers Δ}

/-- The ways a call takes, with what it has done when it returns. -/
inductive Adds (c : NatsConnection) (fresh : Δ) (faults : ConsumerFaults)
    (streamName durableName : String) (subjects : List String) (consumers : Consumers Δ) :
    Option String × Consumers Δ × List ConsumerRequest → Prop
  | disconnected (h : ¬ (c.useStream = true ∧ c.js = true)) (err : String) :
    Adds c fresh faults streamName durableName subjects consumers (some err, consumers, [])
  | kept (hjs : c.useStream = true ∧ c.js = true) {consumer : Consumer Δ}
      (h : consumers streamName durableName = some consumer)
      (hmatches : consumerFilterMatches consumer.config subjects = true) :
    Adds c fresh faults streamName durableName subjects consumers (none, consumers, [.consumerInfo])
  | undeleted {err : String} (h : faults.delete = some err) :
    Adds c fresh faults streamName durableName subjects consumers
      (some err, consumers, [.consumerInfo, .deleteConsumer])
  | recreated (hjs : c.useStream = true ∧ c.js = true) {consumer : Consumer Δ}
      (hinfo : faults.info = none) (h : consumers streamName durableName = some consumer)
      (hmatches : consumerFilterMatches consumer.config subjects = false)
      (hdelete : faults.delete = none) :
    Adds c fresh faults streamName durableName subjects consumers
      (createConsumer fresh faults streamName durableName subjects
        (consumers.set streamName durableName none) [.consumerInfo, .deleteConsumer])
  | uninformed {err : String} (h : faults.info = some err) :
    Adds c fresh faults streamName durableName subjects consumers
      (some err, consumers, [.consumerInfo])
  | created (hjs : c.useStream = true ∧ c.js = true)
      (h : faults.info ≠ none ∨ consumers streamName durableName = none) :
    Adds c fresh faults streamName durableName subjects consumers
      (createConsumer fresh faults streamName durableName subjects consumers [.consumerInfo])

/-- Every call takes one of the ways. -/
theorem adds (c : NatsConnection) (fresh : Δ) (faults : ConsumerFaults)
    (streamName durableName : String) (subjects : List String) (consumers : Consumers Δ) :
    Adds c fresh faults streamName durableName subjects consumers
      (c.addConsumer fresh faults streamName durableName subjects consumers) := by
  unfold addConsumer
  by_cases huse : c.useStream = false
  · rw [if_pos huse]
    exact .disconnected (by simp [huse]) _
  · rw [if_neg huse]
    by_cases hjs : c.js = false
    · rw [if_pos hjs]
      exact .disconnected (by simp [hjs]) _
    · rw [if_neg hjs]
      have hconnected : c.useStream = true ∧ c.js = true := by simpa using And.intro huse hjs
      unfold Consumers.consumerInfo
      cases hinfo : faults.info with
      | some err =>
        dsimp only
        split
        · exact .created hconnected (.inl (by simp [hinfo]))
        · exact .uninformed hinfo
      | none =>
        cases hconsumer : consumers streamName durableName with
        | none =>
          have hcontains : contains "nats: consumer not found" "consumer not found" = true := by
            decide
          simp only [hcontains, if_true]
          exact .created hconnected (.inr hconsumer)
        | some consumer =>
          dsimp only
          split
          · rename_i hmatches
            exact .kept hconnected hconsumer hmatches
          · rename_i hmatches
            unfold Consumers.deleteConsumer
            cases hdelete : faults.delete with
            | some err => exact .undeleted hdelete
            | none =>
              simp only [hconsumer]
              exact .recreated hconnected hinfo hconsumer (by simpa using hmatches) hdelete

/-- A consumer that is created, or found to be there, has the subjects of the call. -/
theorem createConsumer_ok {requests : List ConsumerRequest}
    (h : (createConsumer fresh faults streamName durableName subjects consumers requests).1 =
      none) :
    ∃ consumer, (createConsumer fresh faults streamName durableName subjects consumers
        requests).2.1 streamName durableName = some consumer ∧
      consumerFilterMatches consumer.config subjects = true := by
  unfold createConsumer Consumers.addConsumer at h ⊢
  rw [consumerConfig_durable] at h ⊢
  cases hadd : faults.add with
  | some err =>
    rw [hadd] at h
    cases h
  | none =>
    rw [hadd] at h
    cases hconsumer : consumers streamName durableName with
    | some consumer =>
      simp only [hconsumer] at h ⊢
      split at h
      · rename_i hsame
        rw [if_pos hsame]
        exact ⟨consumer, hconsumer, hsame ▸ consumerFilterMatches_consumerConfig ..⟩
      · cases h
    | none =>
      exact ⟨_, Consumers.set_self .., consumerFilterMatches_consumerConfig ..⟩

/-- Creating a consumer does nothing to one that exists. -/
theorem createConsumer_of_some {requests : List ConsumerRequest} {old : Consumer Δ}
    (h : consumers streamName durableName = some old) :
    (createConsumer fresh faults streamName durableName subjects consumers requests).2.1
      streamName durableName = some old := by
  unfold createConsumer Consumers.addConsumer
  rw [consumerConfig_durable, h]
  cases faults.add with
  | some err => exact h
  | none =>
    dsimp only
    split <;> exact h

/-- Creating a consumer under a free name fails only with the request. -/
theorem createConsumer_of_none (fresh : Δ) (faults : ConsumerFaults) (subjects : List String)
    (requests : List ConsumerRequest) (h : consumers streamName durableName = none) :
    (createConsumer fresh faults streamName durableName subjects consumers requests).1 =
      faults.add ∧
    (faults.add ≠ none → (createConsumer fresh faults streamName durableName subjects consumers
      requests).2.1 streamName durableName = none) := by
  unfold createConsumer Consumers.addConsumer
  rw [consumerConfig_durable, h]
  cases faults.add with
  | some err => exact ⟨rfl, fun _ => h⟩
  | none => exact ⟨rfl, fun hne => absurd rfl hne⟩

/-- A call that succeeds leaves a consumer with the subjects of the call. -/
theorem Adds.matches {result : Option String × Consumers Δ × List ConsumerRequest}
    (h : Adds c fresh faults streamName durableName subjects consumers result)
    (hok : result.1 = none) :
    (c.useStream = true ∧ c.js = true) ∧
      ∃ consumer, result.2.1 streamName durableName = some consumer ∧
        consumerFilterMatches consumer.config subjects = true := by
  cases h with
  | disconnected | undeleted | uninformed => cases hok
  | kept hjs hconsumer hmatches => exact ⟨hjs, _, hconsumer, hmatches⟩
  | recreated hjs => exact ⟨hjs, createConsumer_ok hok⟩
  | created hjs => exact ⟨hjs, createConsumer_ok hok⟩

/-- A call that finds a consumer with its subjects only looks. -/
theorem addConsumer_of_matches (hjs : c.useStream = true ∧ c.js = true) {consumer : Consumer Δ}
    (hinfo : faults.info = none) (h : consumers streamName durableName = some consumer)
    (hmatches : consumerFilterMatches consumer.config subjects = true) :
    c.addConsumer fresh faults streamName durableName subjects consumers =
      (none, consumers, [.consumerInfo]) := by
  simp [addConsumer, hjs, Consumers.consumerInfo, hinfo, h, hmatches]

end NatsConnection

/-- Whatever was there before and whatever failed on the way, once a call has succeeded the same
call succeeds again, asks for the consumer and does nothing else. -/
theorem addConsumer_idempotent {Δ : Type} (c : NatsConnection) (fresh : Δ) (faults : ConsumerFaults)
    (streamName durableName : String) (subjects : List String) (consumers : Consumers Δ)
    (hok : (c.addConsumer fresh faults streamName durableName subjects consumers).1 = none) :
    c.addConsumer fresh ⟨none, none, none⟩ streamName durableName subjects
        (c.addConsumer fresh faults streamName durableName subjects consumers).2.1 =
      (none, (c.addConsumer fresh faults streamName durableName subjects consumers).2.1,
        [.consumerInfo]) := by
  obtain ⟨hjs, consumer, hconsumer, hmatches⟩ := (c.adds fresh faults streamName durableName
    subjects consumers).matches hok
  exact NatsConnection.addConsumer_of_matches hjs rfl hconsumer hmatches

/-- A connection with JetStream. -/
def ordersConnection : NatsConnection := ⟨⟨"ORDERS", []⟩, true, true, .idle⟩

/-- A server with one consumer, whose delivery state is the number of messages it has seen. -/
def paidConsumers : Consumers Nat := fun streamName durableName =>
  if streamName = "ORDERS" ∧ durableName = "worker" then some ⟨paidConsumer, 7⟩ else none

/-- The first call replaces the consumer, the second leaves it alone. -/
theorem addConsumer_idempotent_after_change :
    (ordersConnection.addConsumer 0 ⟨none, none, none⟩ "ORDERS" "worker"
        ["orders.new", "orders.paid"] paidConsumers).2.2 =
      [.consumerInfo, .deleteConsumer, .addConsumer] ∧
    (ordersConnection.addConsumer 0 ⟨none, none, none⟩ "ORDERS" "worker"
        ["orders.new", "orders.paid"]
        (ordersConnection.addConsumer 0 ⟨none, none, none⟩ "ORDERS" "worker"
          ["orders.new", "orders.paid"] paidConsumers).2.1).2.2 = [.consumerInfo] :=
  ⟨rfl, congrArg (·.2.2) (addConsumer_idempotent ordersConnection 0 ⟨none, none, none⟩ "ORDERS"
    "worker" ["orders.new", "orders.paid"] paidConsumers rfl)⟩

/-- A call that fails leaves the consumer as it was, exactly unless it has deleted it for another
filter and then could not create the new one. -/
theorem addConsumer_keeps_iff {Δ : Type} (c : NatsConnection) (fresh : Δ) (faults : ConsumerFaults)
    (streamName durableName : String) (subjects : List String) (consumers : Consumers Δ)
    {old : Consumer Δ} (hold : consumers streamName durableName = some old) :
    ((c.addConsumer fresh faults streamName durableName subjects consumers).1 ≠ none →
        (c.addConsumer fresh faults streamName durableName subjects consumers).2.1
          streamName durableName = some old) ↔
      ¬ ((c.useStream = true ∧ c.js = true) ∧ faults.info = none ∧
        consumerFilterMatches old.config subjects = false ∧
          faults.delete = none ∧ faults.add ≠ none) := by
  have hadds := c.adds fresh faults streamName durableName subjects consumers
  generalize c.addConsumer fresh faults streamName durableName subjects consumers = result at hadds
  cases hadds with
  | disconnected hjs => exact iff_of_true (fun _ => hold) fun h => hjs h.1
  | kept _ hconsumer hmatches =>
    obtain rfl := Option.some.inj (hconsumer.symm.trans hold)
    exact iff_of_true (fun _ => hold) (by simp [hmatches])
  | undeleted hdelete => exact iff_of_true (fun _ => hold) (by simp [hdelete])
  | uninformed hinfo => exact iff_of_true (fun _ => hold) (by simp [hinfo])
  | recreated hjs hinfo hconsumer hmatches hdelete =>
    obtain rfl := Option.some.inj (hconsumer.symm.trans hold)
    obtain ⟨herr, hgone⟩ := NatsConnection.createConsumer_of_none fresh faults subjects
      [.consumerInfo, .deleteConsumer] (consumers.set_self streamName durableName none)
    rw [herr]
    by_cases hadd : faults.add = none
    · exact iff_of_true (fun hne => absurd hadd hne) fun h => h.2.2.2.2 hadd
    · refine iff_of_false (fun hkeeps => ?_) (not_not.mpr ⟨hjs, hinfo, hmatches, hdelete, hadd⟩)
      rw [hgone hadd] at hkeeps
      cases hkeeps hadd
  | created _ h =>
    have hinfo : faults.info ≠ none := h.resolve_right (by simp [hold])
    exact iff_of_true (fun _ => NatsConnection.createConsumer_of_some hold) (by simp [hinfo])

/-- A consumer that cannot be deleted stays. -/
theorem addConsumer_keeps_undeleted :
    (ordersConnection.addConsumer 0 ⟨none, some "nats: timeout", none⟩ "ORDERS" "worker"
        ["orders.new"] paidConsumers).1 = some "nats: timeout" ∧
      (ordersConnection.addConsumer 0 ⟨none, some "nats: timeout", none⟩ "ORDERS" "worker"
        ["orders.new"] paidConsumers).2.1 "ORDERS" "worker" = some ⟨paidConsumer, 7⟩ :=
  ⟨rfl, (addConsumer_keeps_iff ordersConnection 0 ⟨none, some "nats: timeout", none⟩ "ORDERS"
    "worker" ["orders.new"] paidConsumers rfl).mpr (by simp) (by decide)⟩

/-- The stream refuses a second consumer with a filter. -/
def notUnique : String := "nats: filtered consumer not unique on workqueue stream"

/-- A consumer that is deleted for another filter, which the stream then refuses, is gone with its
delivery state. -/
theorem addConsumer_loses_consumer :
    paidConsumers "ORDERS" "worker" = some ⟨paidConsumer, 7⟩ ∧
      (ordersConnection.addConsumer 0 ⟨none, none, some notUnique⟩ "ORDERS" "worker"
        ["orders.new"] paidConsumers).1 = some notUnique ∧
      (ordersConnection.addConsumer 0 ⟨none, none, some notUnique⟩ "ORDERS" "worker"
        ["orders.new"] paidConsumers).2.1 "ORDERS" "worker" = none :=
  ⟨rfl, rfl, rfl⟩

end Stardust.Nats
