import Flom.MsgVariant

set_option autoImplicit false

namespace Flom

def Attribute.refused (header : Header) (attr : Attribute) : Prop :=
  match attr.tag with
  | .msg => attr.name = msgPropLevel ∧ (strtoint attr.value).toInt ≠ msgLevel
  | .resource =>
    header = ⟨.lock, msgStepIncr⟩ ∧ attr.name = msgPropRollback ∨
      header = ⟨.unlock, msgStepIncr⟩ ∧ attr.name ∈ lockOnly
  | .network => header = ⟨.discover, 2 * msgStepIncr⟩ ∧ attr.name ∉ [msgPropPort, msgPropAddress]
  | .shutdown => header = ⟨.mngmnt, msgStepIncr⟩ ∧ attr.name ≠ msgPropImmediate
  | .dummy => True
  | .answer | .session => False

instance refusedDecidable (header : Header) (attr : Attribute) : Decidable (attr.refused header) :=
  match attr with
  | ⟨.msg, _, _⟩ => inferInstanceAs (Decidable (_ ∧ _))
  | ⟨.resource, _, _⟩ => inferInstanceAs (Decidable (_ ∧ _ ∨ _ ∧ _))
  | ⟨.network, _, _⟩ => inferInstanceAs (Decidable (_ ∧ _))
  | ⟨.shutdown, _, _⟩ => inferInstanceAs (Decidable (_ ∧ _))
  | ⟨.dummy, _, _⟩ => isTrue trivial
  | ⟨.answer, _, _⟩ | ⟨.session, _, _⟩ => isFalse id

def Refuses (header : Header) (attrs : List Attribute) : Prop :=
  Run.Sometime Header.read (fun header attr => attr.refused header) header attrs

instance refusesDecidable (header : Header) (attrs : List Attribute) :
    Decidable (Refuses header attrs) :=
  inferInstanceAs (Decidable (Run.Sometime _ _ _ _))

def Header.readUntil : Header → List Attribute → Header
  | header, [] => header
  | header, attr :: rest =>
    if attr.refused header then header else Header.readUntil (header.read attr) rest

section

variable {decode : Name → Name} {address : Address}

def Judged (attr : Attribute) (msg : Msg) : Deserialized → Prop
  | .ok _ => ¬attr.refused msg.header
  | .error thrown => attr.refused msg.header ∧ thrown.header = msg.header

theorem judged_header (msg : Msg) (name value : Name) :
    Judged ⟨.msg, name, value⟩ msg (msgHeaderProperty msg name value) := by
  unfold msgHeaderProperty
  dsimp only
  by_cases level : name = msgPropLevel
  · rw [if_pos level]
    split_ifs with three <;> simp [Judged, Attribute.refused, Msg.header, level, three]
  · rw [if_neg level]
    split_ifs <;> simp [Judged, Attribute.refused, level]

theorem judged_only {attr : Attribute} {msg changed : Msg} {verb : Verb}
    (refused : attr.refused msg.header ↔ msg.verb ≠ verb) :
    Judged attr msg (msgOnly msg verb changed) := by
  unfold msgOnly
  split_ifs with same
  · exact fun wrong => refused.mp wrong same
  · exact ⟨refused.mpr same, rfl⟩

theorem judged_request {msg changed : Msg} {name value : Name} {verb : Verb}
    (request : (msg.verb = .lock ∨ msg.verb = .unlock) ∧ msg.step = msgStepIncr)
    (kind : verb = .lock ∧ name ∈ lockOnly ∨ verb = .unlock ∧ name = msgPropRollback) :
    Judged ⟨.resource, name, value⟩ msg (msgOnly msg verb changed) := by
  refine judged_only ?_
  have apart : msgPropRollback ∉ lockOnly := by decide
  obtain ⟨lock | unlock, step⟩ := request
  · have header : msg.header = ⟨.lock, msgStepIncr⟩ := by rw [Msg.header, lock, step]
    obtain ⟨rfl, inside⟩ | ⟨rfl, rfl⟩ := kind
    · have other : name ≠ msgPropRollback := fun same => apart (same ▸ inside)
      simp [Attribute.refused, header, lock, other]
    · simp [Attribute.refused, header, lock]
  · have header : msg.header = ⟨.unlock, msgStepIncr⟩ := by rw [Msg.header, unlock, step]
    obtain ⟨rfl, inside⟩ | ⟨rfl, rfl⟩ := kind
    · simp [Attribute.refused, header, unlock, inside]
    · simp [Attribute.refused, header, unlock, apart]

theorem judged_resource (msg : Msg) (name value : Name) :
    Judged ⟨.resource, name, value⟩ msg (msgResourceProperty decode address msg name value) := by
  unfold msgResourceProperty
  dsimp only
  by_cases request : (msg.verb = .lock ∨ msg.verb = .unlock) ∧ msg.step = msgStepIncr
  · rw [if_pos request]
    have lock : ∀ changed, name ∈ lockOnly → Judged ⟨.resource, name, value⟩ msg
        (msgOnly msg .lock changed) :=
      fun changed inside => judged_request request (.inl ⟨rfl, inside⟩)
    split_ifs with named first mode rollback wait quantity create lifespan
    · simp [Judged, Attribute.refused, named, lockOnly, msgPropName, msgPropRollback, msgPropMode,
        msgPropWait,
        msgPropQuantity, msgPropCreate, msgPropLifespan]
    · simp [Judged, Attribute.refused, named, lockOnly, msgPropName, msgPropRollback, msgPropMode,
        msgPropWait,
        msgPropQuantity, msgPropCreate, msgPropLifespan]
    · exact lock _ (by simp [mode, lockOnly])
    · exact judged_request request (.inr ⟨rfl, rollback⟩)
    · exact lock _ (by simp [wait, lockOnly])
    · exact lock _ (by simp [quantity, lockOnly])
    · exact lock _ (by simp [create, lockOnly])
    · exact lock _ (by simp [lifespan, lockOnly])
    · simp [Judged, Attribute.refused, lockOnly, mode, rollback, wait, quantity, create, lifespan]
  · rw [if_neg request]
    rintro (⟨header, _⟩ | ⟨header, _⟩)
    · obtain ⟨lock, step⟩ := (Header.mk.injEq ..).mp header
      exact request ⟨.inl lock, step⟩
    · obtain ⟨unlock, step⟩ := (Header.mk.injEq ..).mp header
      exact request ⟨.inr unlock, step⟩

theorem judged_answer (msg : Msg) (name value : Name) :
    Judged ⟨.answer, name, value⟩ msg (msgAnswerProperty address msg name value) := by
  unfold msgAnswerProperty
  dsimp only
  split_ifs <;> exact id

theorem judged_network (msg : Msg) (name value : Name) :
    Judged ⟨.network, name, value⟩ msg (msgNetworkProperty address msg name value) := by
  unfold msgNetworkProperty
  split_ifs with answer port address
  · simp [Judged, Attribute.refused, port]
  · simp [Judged, Attribute.refused, address]
  · simp [Judged, Attribute.refused, Msg.header, answer, port, address]
  · simp [Judged, Attribute.refused, Msg.header, answer]

theorem judged_session (msg : Msg) (name value : Name) :
    Judged ⟨.session, name, value⟩ msg (msgSessionProperty address msg name value) := by
  unfold msgSessionProperty
  split_ifs <;> exact id

theorem judged_shutdown (msg : Msg) (name value : Name) :
    Judged ⟨.shutdown, name, value⟩ msg (msgShutdownProperty msg name value) := by
  unfold msgShutdownProperty
  split_ifs with request immediate
  · simp [Judged, Attribute.refused, immediate]
  · simp [Judged, Attribute.refused, Msg.header, request, immediate]
  · simp [Judged, Attribute.refused, Msg.header, request]

theorem msgProperty_judged (msg : Msg) (attr : Attribute) :
    Judged attr msg (msgProperty decode address attr.tag msg (attr.name, attr.value)) := by
  obtain ⟨tag, name, value⟩ := attr
  cases tag with
  | msg => exact judged_header msg name value
  | resource => exact judged_resource msg name value
  | answer => exact judged_answer msg name value
  | network => exact judged_network msg name value
  | session => exact judged_session msg name value
  | shutdown => exact judged_shutdown msg name value
  | dummy => exact ⟨trivial, rfl⟩

theorem refuses_append {header : Header} {first second : List Attribute}
    (kept : ¬Refuses header first) :
    Refuses header (first ++ second) ↔ Refuses (Run.run Header.read header first) second := by
  unfold Refuses at kept ⊢
  rw [Run.sometime_append, or_iff_right kept]

theorem readUntil_refused {header : Header} {attrs : List Attribute}
    (refuses : Refuses header attrs) (more : List Attribute) :
    header.readUntil (attrs ++ more) = header.readUntil attrs := by
  induction attrs generalizing header with
  | nil => exact absurd refuses id
  | cons attr rest ih =>
    rw [List.cons_append, Header.readUntil, Header.readUntil]
    split_ifs with here
    · rfl
    · exact ih (refuses.resolve_left here)

theorem readUntil_append {header : Header} {attrs : List Attribute} (kept : ¬Refuses header attrs)
    (more : List Attribute) :
    header.readUntil (attrs ++ more) = (Run.run Header.read header attrs).readUntil more := by
  induction attrs generalizing header with
  | nil => rfl
  | cons attr rest ih =>
    rw [List.cons_append, Header.readUntil, if_neg fun here => kept (.inl here)]
    exact ih fun later => kept (.inr later)

theorem element_judged (tag : MsgTag) (properties : List (Name × Name)) (msg : Msg) :
    let attrs := properties.map fun property => (⟨tag, property.1, property.2⟩ : Attribute)
    match properties.foldlM (msgProperty decode address tag) msg with
    | .ok _ => ¬Refuses msg.header attrs
    | .error thrown => Refuses msg.header attrs ∧ thrown.header = msg.header.readUntil attrs := by
  induction properties generalizing msg with
  | nil => exact id
  | cons property rest ih =>
    have judged := @msgProperty_judged decode address msg ⟨tag, property.1, property.2⟩
    simp only [List.map_cons, List.foldlM_cons]
    cases here : msgProperty decode address tag msg property with
    | error thrown =>
      rw [here] at judged
      refine ⟨.inl judged.1, ?_⟩
      rw [Header.readUntil, if_pos judged.1]
      exact judged.2
    | ok middle =>
      rw [here] at judged
      have header : middle.header = msg.header.read ⟨tag, property.1, property.2⟩ :=
        (@msgProperty_reads decode address msg middle ⟨tag, property.1, property.2⟩ here).header
      have later := ih middle
      simp only [bind, Except.bind]
      generalize rest.foldlM (msgProperty decode address tag) middle = after at later
      cases after with
      | ok done =>
        rintro (first | other)
        · exact judged first
        · rw [header] at later
          exact later other
      | error thrown =>
        rw [header] at later
        refine ⟨.inr later.1, ?_⟩
        rw [Header.readUntil, if_neg judged]
        exact later.2

end

def strayEnd : List MarkupEvent → Bool
  | [] => false
  | .text _ :: rest => strayEnd rest
  | .start _ _ :: _ => false
  | .stop _ :: _ => true

structure Msg.Accepts (msg : Msg) (events : List MarkupEvent) : Prop where
  sane : msg.state ≠ .invalid
  opens : msg.state = .initialized → strayEnd events = false
  accepted : ¬Refuses msg.header (attributesOf events)

instance acceptsDecidable (msg : Msg) (events : List MarkupEvent) :
    Decidable (msg.Accepts events) :=
  decidable_of_iff (msg.state ≠ .invalid ∧ (msg.state = .initialized → strayEnd events = false) ∧
      ¬Refuses msg.header (attributesOf events))
    ⟨fun all => ⟨all.1, all.2.1, all.2.2⟩, fun accepts =>
      ⟨accepts.sane, accepts.opens, accepts.accepted⟩⟩

def Msg.acceptedHeader (msg : Msg) (events : List MarkupEvent) : Header :=
  if msg.state = .invalid ∨ msg.state = .initialized ∧ strayEnd events = true then msg.header
  else msg.header.readUntil (attributesOf events)

structure Parsed (msg : Msg) (events : List MarkupEvent) (after : Msg) : Prop where
  header : after.header = msg.acceptedHeader events
  valid : after.state ≠ .invalid ↔ msg.Accepts events
  ready : after.state = .ready ↔ msg.Accepts events ∧
    (msg.state = .ready ∨ .stop msgTagMsg ∈ events)

section

variable {decode : Name → Name} {address : Address} {msg : Msg} {events : List MarkupEvent}

theorem accepts_begun (sane : msg.state ≠ .invalid) (begun : msg.state ≠ .initialized) :
    msg.Accepts events ↔ ¬Refuses msg.header (attributesOf events) :=
  ⟨Msg.Accepts.accepted, fun accepted => ⟨sane, fun fresh => absurd fresh begun, accepted⟩⟩

theorem acceptedHeader_begun (sane : msg.state ≠ .invalid) (begun : msg.state ≠ .initialized) :
    msg.acceptedHeader events = msg.header.readUntil (attributesOf events) := by
  rw [Msg.acceptedHeader, if_neg (by simp [sane, begun])]

variable {event : MarkupEvent} {next after : Msg}

theorem parsed_spent (later : Parsed next events after) (state : next.state = .invalid)
    (never : ¬msg.Accepts (event :: events))
    (header : next.header = msg.acceptedHeader (event :: events)) :
    Parsed msg (event :: events) after := by
  have refused : ¬next.Accepts events := fun accepts => accepts.sane state
  refine ⟨?_, ?_, ?_⟩
  · rw [later.header, Msg.acceptedHeader, if_pos (.inl state), header]
  · rw [later.valid, iff_false_intro refused, iff_false_intro never]
  · rw [later.ready, iff_false_intro refused, iff_false_intro never, false_and, false_and]

theorem parsed_begun (later : Parsed next events after) (sane : next.state ≠ .invalid)
    (begun : next.state ≠ .initialized)
    (accepts : msg.Accepts (event :: events) ↔ ¬Refuses next.header (attributesOf events))
    (header : msg.acceptedHeader (event :: events) = next.header.readUntil (attributesOf events))
    (ready : next.state = .ready ∨ .stop msgTagMsg ∈ events ↔ msg.state = .ready ∨
      .stop msgTagMsg ∈ event :: events) :
    Parsed msg (event :: events) after := by
  rw [← accepts_begun sane begun] at accepts
  rw [← acceptedHeader_begun sane begun] at header
  exact ⟨later.header.trans header.symm, later.valid.trans accepts.symm,
    later.ready.trans (and_congr accepts.symm ready)⟩

theorem parsed_text {content : Name} (later : Parsed msg events after) :
    Parsed msg (.text content :: events) after := by
  have accepts : msg.Accepts events ↔ msg.Accepts (.text content :: events) :=
    ⟨fun accepts => ⟨accepts.sane, accepts.opens, accepts.accepted⟩,
      fun accepts => ⟨accepts.sane, accepts.opens, accepts.accepted⟩⟩
  refine ⟨later.header, later.valid.trans accepts, later.ready.trans (and_congr accepts ?_)⟩
  simp

theorem endElement_begun (element : Name) (sane : msg.state ≠ .invalid)
    (begun : msg.state ≠ .initialized) :
    let stopped := msgDeserializeEndElement msg element
    stopped.header = msg.header ∧ stopped.state ≠ .invalid ∧ stopped.state ≠ .initialized ∧
      (stopped.state = .ready ↔ msg.state = .ready ∨ element = msgTagMsg) := by
  intro stopped
  simp only [stopped, msgDeserializeEndElement]
  cases state : msg.state with
  | invalid => exact absurd state sane
  | initialized => exact absurd state begun
  | ready => simp [state]
  | parsing => by_cases closes : element = msgTagMsg <;> simp [closes, state, Msg.header]

theorem parsed_stop {element : Name}
    (later : Parsed (msgDeserializeEndElement msg element) events after) :
    Parsed msg (.stop element :: events) after := by
  by_cases invalid : msg.state = .invalid
  · have stopped : msgDeserializeEndElement msg element = msg := by
      simp [msgDeserializeEndElement, invalid]
    rw [stopped] at later
    refine parsed_spent later invalid (fun accepts => accepts.sane invalid) ?_
    rw [Msg.acceptedHeader, if_pos (.inl invalid)]
  · by_cases fresh : msg.state = .initialized
    · have stopped : msgDeserializeEndElement msg element = { msg with state := .invalid } := by
        simp [msgDeserializeEndElement, fresh]
      rw [stopped] at later
      refine parsed_spent later rfl
        (fun accepts => absurd (accepts.opens fresh) (by simp [strayEnd])) ?_
      rw [Msg.acceptedHeader, if_pos (.inr ⟨fresh, rfl⟩)]
      rfl
    · obtain ⟨header, sane, begun, ready⟩ := endElement_begun element invalid fresh
      refine parsed_begun later sane begun ?_ ?_ ?_
      · rw [accepts_begun invalid fresh, header]
        rfl
      · rw [acceptedHeader_begun invalid fresh, header]
        rfl
      · rw [ready, or_assoc, List.mem_cons, MarkupEvent.stop.injEq, eq_comm (a := element)]

theorem begun_state (sane : msg.state ≠ .invalid) :
    msg.begun.state ≠ .invalid ∧ msg.begun.state ≠ .initialized ∧
    (msg.begun.state = .ready ↔ msg.state = .ready) := by
  unfold Msg.begun
  split_ifs with fresh
  · simp [fresh]
  · exact ⟨sane, fresh, .rfl⟩

theorem parsed_start {element : Name} {properties : List (Name × Name)}
    (later :
      Parsed (msgDeserializeStartElement decode address msg element properties) events after) :
    Parsed msg (.start element properties :: events) after := by
  have attributes : attributesOf (.start element properties :: events) =
      (properties.map fun property => ⟨msgTagType element, property.1, property.2⟩) ++
        attributesOf events := rfl
  by_cases invalid : msg.state = .invalid
  · have started : msgDeserializeStartElement decode address msg element properties = msg := by
      simp [msgDeserializeStartElement, invalid]
    rw [started] at later
    refine parsed_spent later invalid (fun accepts => accepts.sane invalid) ?_
    rw [Msg.acceptedHeader, if_pos (.inl invalid)]
  · have opens : strayEnd (.start element properties :: events) = false := rfl
    have accepts : msg.Accepts (.start element properties :: events) ↔
        ¬Refuses msg.header (attributesOf (.start element properties :: events)) :=
      ⟨Msg.Accepts.accepted, fun accepted => ⟨invalid, fun _ => opens, accepted⟩⟩
    have final : msg.acceptedHeader (.start element properties :: events) =
        msg.header.readUntil (attributesOf (.start element properties :: events)) := by
      rw [Msg.acceptedHeader, if_neg (by simp [invalid, opens])]
    have judged := @element_judged decode address (msgTagType element) properties msg.begun
    have takes := @element_takes decode address (msgTagType element) properties msg.begun
    have header : msg.begun.header = msg.header := by
      obtain ⟨state, begun⟩ := begun_same msg
      rw [begun]
      rfl
    have started : msgDeserializeStartElement decode address msg element properties =
        match properties.foldlM (msgProperty decode address (msgTagType element)) msg.begun with
        | .ok parsed => parsed
        | .error thrown => { thrown with state := .invalid } := by
      rw [msgDeserializeStartElement, if_neg invalid]
      rfl
    rw [header] at judged
    rw [started] at later
    generalize properties.foldlM (msgProperty decode address (msgTagType element)) msg.begun =
      result at judged takes later
    cases result with
    | error thrown =>
      refine parsed_spent later rfl (fun accepted => accepts.mp accepted ?_) ?_
      · exact Run.sometime_append.mpr (.inl judged.1)
      · rw [final, attributes, readUntil_refused judged.1]
        exact judged.2
    | ok parsed =>
      obtain ⟨took, state⟩ := takes rfl
      have run := took.header
      rw [header] at run
      obtain ⟨sane, begun, ready⟩ := begun_state invalid
      rw [← state] at sane begun ready
      refine parsed_begun later sane begun ?_ ?_ ?_
      · rw [accepts, attributes, refuses_append judged, run]
      · rw [final, attributes, readUntil_append judged, run]
      · rw [ready]
        simp

theorem events_parsed (decode : Name → Name) (address : Address) (msg : Msg)
    (events : List MarkupEvent) :
    Parsed msg events (events.foldl (msgDeserializeEvent decode address) msg) := by
  induction events generalizing msg with
  | nil =>
    have accepts : msg.Accepts [] ↔ msg.state ≠ .invalid :=
      ⟨Msg.Accepts.sane, fun sane => ⟨sane, fun _ => rfl, id⟩⟩
    refine ⟨?_, accepts.symm, ?_⟩
    · unfold Msg.acceptedHeader
      split_ifs <;> rfl
    · rw [accepts]
      constructor
      · intro ready
        have here : msg.state = .ready := ready
        exact ⟨by simp [here], .inl here⟩
      · rintro ⟨_, ready | none⟩
        · exact ready
        · cases none
  | cons event rest ih =>
    cases event with
    | start element properties => exact parsed_start (ih _)
    | text content => exact parsed_text (ih msg)
    | stop element => exact parsed_stop (ih _)

end

def Msg.Admitted (msg : Msg) : Prop := msg.state = .ready ∧ msgCheckProtocol msg true = true

instance admittedDecidable (msg : Msg) : Decidable msg.Admitted :=
  inferInstanceAs (Decidable (_ ∧ _))

structure Feed.Whole (feed : Feed) (msg : Msg) : Prop where
  accepts : msg.Accepts feed.events
  complete : msg.state = .ready ∨ .stop msgTagMsg ∈ feed.events
  first : (msg.acceptedHeader feed.events).step = msgStepIncr

instance wholeDecidable (feed : Feed) (msg : Msg) : Decidable (feed.Whole msg) :=
  decidable_of_iff (msg.Accepts feed.events ∧ (msg.state = .ready ∨ .stop msgTagMsg ∈ feed.events) ∧
      (msg.acceptedHeader feed.events).step = msgStepIncr)
    ⟨fun all => ⟨all.1, all.2.1, all.2.2⟩, fun whole =>
      ⟨whole.accepts, whole.complete, whole.first⟩⟩

section

variable {decode : Name → Name} {feed : Feed} {msg : Msg}

theorem checkProtocol_iff (locks : msg.verb = .lock ∨ msg.verb = .unlock) :
    msgCheckProtocol msg true = true ↔ msg.step = msgStepIncr := by
  obtain lock | unlock := locks
  · simp only [msgCheckProtocol, lock]
    split_ifs <;> simp [*]
  · simp only [msgCheckProtocol, unlock]
    split_ifs <;> simp [*]

theorem admitted_iff (locks : (msg.acceptedHeader feed.events).verb = .lock ∨
      (msg.acceptedHeader feed.events).verb = .unlock) :
    (msgDeserialize decode feed msg).2.Admitted ↔ feed.Whole msg := by
  have parsed := events_parsed decode feed.address msg feed.events
  have verb : (msgDeserialize decode feed msg).2.verb = (msg.acceptedHeader feed.events).verb :=
    congrArg Header.verb parsed.header
  have step : (msgDeserialize decode feed msg).2.step = (msg.acceptedHeader feed.events).step :=
    congrArg Header.step parsed.header
  have ready : (msgDeserialize decode feed msg).2.state = .ready ↔ _ := parsed.ready
  rw [Msg.Admitted, checkProtocol_iff (verb ▸ locks), ready, step]
  constructor
  · rintro ⟨⟨accepts, complete⟩, first⟩
    exact ⟨accepts, complete, first⟩
  · rintro ⟨accepts, complete, first⟩
    exact ⟨⟨accepts, complete⟩, first⟩

theorem deserialize_ready (settled : msg.state = .ready ∨ msg.state = .invalid) :
    (msgDeserialize decode feed msg).2.state = .ready ∨
      (msgDeserialize decode feed msg).2.state = .invalid := by
  have parsed := events_parsed decode feed.address msg feed.events
  by_cases accepts : msg.Accepts feed.events
  · exact .inl (parsed.ready.mpr ⟨accepts, .inl (settled.resolve_right accepts.sane)⟩)
  · exact .inr (not_not.mp fun valid => accepts (parsed.valid.mp valid))

end

end Flom
