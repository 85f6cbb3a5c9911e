import Flom.Lib.Run
import Flom.MsgDeserialize

set_option autoImplicit false

namespace Flom

structure Header where
  verb : Verb
  step : Int
deriving DecidableEq, Repr

def Msg.header (msg : Msg) : Header := ⟨msg.verb, msg.step⟩

inductive Variant where
  | lock8 | lock16 | lock24 | lock32 | unlock8 | discover16 | mngmnt8
deriving DecidableEq, Repr

def Header.variant (header : Header) : Option Variant :=
  if header = ⟨.lock, msgStepIncr⟩ then some .lock8
  else if header = ⟨.lock, 2 * msgStepIncr⟩ then some .lock16
  else if header = ⟨.lock, 3 * msgStepIncr⟩ then some .lock24
  else if header = ⟨.lock, 4 * msgStepIncr⟩ then some .lock32
  else if header = ⟨.unlock, msgStepIncr⟩ then some .unlock8
  else if header = ⟨.discover, 2 * msgStepIncr⟩ then some .discover16
  else if header = ⟨.mngmnt, msgStepIncr⟩ then some .mngmnt8
  else none

structure Attribute where
  tag : MsgTag
  name : Name
  value : Name
deriving DecidableEq, Repr

def MarkupEvent.attributes : MarkupEvent → List Attribute
  | .start element properties =>
    properties.map fun property => ⟨msgTagType element, property.1, property.2⟩
  | .text _ | .stop _ => []

def attributesOf (events : List MarkupEvent) : List Attribute :=
  events.flatMap MarkupEvent.attributes

def Header.read (header : Header) (attr : Attribute) : Header :=
  if attr.tag = .msg then
    if attr.name = msgPropLevel then header
    else if attr.name = msgPropVerb then
      { header with verb := Verb.ofInt (strtoint attr.value).toInt }
    else if attr.name = msgPropStep then { header with step := (strtoint attr.value).toInt }
    else header
  else header

def lockOnly : List Name := [msgPropMode, msgPropWait, msgPropQuantity, msgPropCreate,
      msgPropLifespan]

def Attribute.stores (attr : Attribute) (header : Header) : Option Variant :=
  match attr.tag with
  | .resource =>
    if header = ⟨.lock, msgStepIncr⟩ ∧ (attr.name = msgPropName ∨ attr.name ∈ lockOnly) then
      some .lock8
    else if header = ⟨.unlock, msgStepIncr⟩ ∧
        (attr.name = msgPropName ∨ attr.name = msgPropRollback) then
      some .unlock8
    else none
  | .answer =>
    if attr.name = msgPropRc ∨ attr.name = msgPropElement then
      if header = ⟨.lock, 2 * msgStepIncr⟩ then some .lock16
      else if header = ⟨.lock, 3 * msgStepIncr⟩ then some .lock24
      else if header = ⟨.lock, 4 * msgStepIncr⟩ then
        if attr.name = msgPropElement then some .lock24 else some .lock32
      else none
    else none
  | .network =>
    if header = ⟨.discover, 2 * msgStepIncr⟩ ∧
        (attr.name = msgPropPort ∨ attr.name = msgPropAddress) then
      some .discover16
    else none
  | .session =>
    if attr.name = msgPropPeerid then
      if header = ⟨.lock, msgStepIncr⟩ then some .lock8
      else if header = ⟨.lock, 2 * msgStepIncr⟩ then some .lock16
      else if header = ⟨.mngmnt, msgStepIncr⟩ then some .mngmnt8
      else none
    else none
  | .shutdown =>
    if header = ⟨.mngmnt, msgStepIncr⟩ ∧ attr.name = msgPropImmediate then some .mngmnt8 else none
  | .msg | .dummy => none

/-- The members the start-element callback stores through, in the order of the attributes, up to
one that is refused. -/
def msgElementWrites (decode : Name → Name) (address : Address) : Msg → List Attribute →
    List Variant
  | _, [] => []
  | msg, attr :: rest =>
    match msgProperty decode address attr.tag msg (attr.name, attr.value) with
    | .ok after => (attr.stores msg.header).toList ++ msgElementWrites decode address after rest
    | .error _ => []

def Msg.begun (msg : Msg) : Msg :=
  if msg.state = .initialized then { msg with state := .parsing } else msg

def msgEventWrites (decode : Name → Name) (address : Address) (msg : Msg) (event : MarkupEvent) :
    List Variant :=
  if msg.state = .invalid then [] else msgElementWrites decode address msg.begun event.attributes

def msgWrites (decode : Name → Name) (address : Address) : Msg → List MarkupEvent → List Variant
  | _, [] => []
  | msg, event :: rest =>
    msgEventWrites decode address msg event ++ msgWrites decode address
      (msgDeserializeEvent decode address msg event) rest

section

variable {decode : Name → Name} {address : Address}

structure Reads (attr : Attribute) (msg after : Msg) : Prop where
  header : after.header = msg.header.read attr
  state : after.state = msg.state
  lockName : attr.stores msg.header = none ∨ attr.stores msg.header = some .lock8 →
    after.lock8.name.isSome = (msg.lock8.name.isSome ||
      decide (attr.tag = .resource ∧ attr.name = msgPropName ∧ msg.header = ⟨.lock, msgStepIncr⟩))
  unlockName : attr.stores msg.header = none ∨ attr.stores msg.header = some .unlock8 →
    after.unlock8.name.isSome = (msg.unlock8.name.isSome ||
      decide (attr.tag = .resource ∧ attr.name = msgPropName ∧ msg.header = ⟨.unlock, msgStepIncr⟩))

theorem reads_header {msg after : Msg} {name value : Name}
    (accepted : msgHeaderProperty msg name value = .ok after) :
    Reads ⟨.msg, name, value⟩ msg after := by
  simp only [msgHeaderProperty] at accepted
  split_ifs at accepted with level three verb step <;> obtain rfl := Except.ok.inj accepted
  all_goals constructor <;> grind [Msg.header, Header.read, Msg.lock8, Msg.unlock8]

theorem reads_resource {msg after : Msg} {name value : Name}
    (accepted : msgResourceProperty decode address msg name value = .ok after) :
    Reads ⟨.resource, name, value⟩ msg after := by
  simp only [msgResourceProperty, msgOnly] at accepted
  split_ifs at accepted <;> cases accepted
  all_goals
    constructor <;> simp_all [Msg.header, Header.read, Msg.lock8, Msg.unlock8, Attribute.stores,
      lockOnly]

theorem reads_answer {msg after : Msg} {name value : Name}
    (accepted : msgAnswerProperty address msg name value = .ok after) :
    Reads ⟨.answer, name, value⟩ msg after := by
  simp only [msgAnswerProperty] at accepted
  split_ifs at accepted <;> obtain rfl := Except.ok.inj accepted
  all_goals constructor <;> grind [Msg.header, Header.read, Msg.lock8, Msg.unlock8,
    Attribute.stores, msgStepIncr, Cell.string_text]

theorem reads_network {msg after : Msg} {name value : Name}
    (accepted : msgNetworkProperty address msg name value = .ok after) :
    Reads ⟨.network, name, value⟩ msg after := by
  simp only [msgNetworkProperty] at accepted
  split_ifs at accepted <;> obtain rfl := Except.ok.inj accepted
  all_goals constructor <;> simp_all
    [Msg.header, Header.read, Msg.lock8, Msg.unlock8, Attribute.stores, msgStepIncr]

theorem reads_session {msg after : Msg} {name value : Name}
    (accepted : msgSessionProperty address msg name value = .ok after) :
    Reads ⟨.session, name, value⟩ msg after := by
  simp only [msgSessionProperty] at accepted
  split_ifs at accepted <;> obtain rfl := Except.ok.inj accepted
  all_goals constructor <;> grind [Msg.header, Header.read, Msg.lock8, Msg.unlock8,
    Attribute.stores, msgStepIncr, Cell.string_text]

theorem reads_shutdown {msg after : Msg} {name value : Name}
    (accepted : msgShutdownProperty msg name value = .ok after) :
    Reads ⟨.shutdown, name, value⟩ msg after := by
  simp only [msgShutdownProperty] at accepted
  split_ifs at accepted <;> obtain rfl := Except.ok.inj accepted
  all_goals constructor <;> simp_all
    [Msg.header, Header.read, Msg.lock8, Msg.unlock8, Attribute.stores, msgStepIncr]

theorem msgProperty_reads {msg after : Msg} {attr : Attribute}
    (accepted : msgProperty decode address attr.tag msg (attr.name, attr.value) = .ok after) :
    Reads attr msg after := by
  obtain ⟨tag, name, value⟩ := attr
  cases tag with
  | msg => exact reads_header accepted
  | resource => exact reads_resource accepted
  | answer => exact reads_answer accepted
  | network => exact reads_network accepted
  | session => exact reads_session accepted
  | shutdown => exact reads_shutdown accepted
  | dummy => cases accepted

end

def namesLock (header : Header) (attr : Attribute) : Prop :=
  attr.tag = .resource ∧ attr.name = msgPropName ∧ header = ⟨.lock, msgStepIncr⟩

def namesUnlock (header : Header) (attr : Attribute) : Prop :=
  attr.tag = .resource ∧ attr.name = msgPropName ∧ header = ⟨.unlock, msgStepIncr⟩

instance (header : Header) (attr : Attribute) : Decidable (namesLock header attr) :=
  inferInstanceAs (Decidable (_ ∧ _ ∧ _))

instance (header : Header) (attr : Attribute) : Decidable (namesUnlock header attr) :=
  inferInstanceAs (Decidable (_ ∧ _ ∧ _))

def storesAlong : Header → List Attribute → List Variant
  | _, [] => []
  | header, attr :: rest => (attr.stores header).toList ++ storesAlong (header.read attr) rest

theorem storesAlong_append (header : Header) (first second : List Attribute) :
    storesAlong header (first ++ second) =
      storesAlong header first ++ storesAlong (Run.run Header.read header first) second := by
  induction first generalizing header with
  | nil => rfl
  | cons attr rest ih => simp [storesAlong, Run.run, ih]

structure Takes (attrs : List Attribute) (writes : List Variant) (msg after : Msg) : Prop where
  header : after.header = Run.run Header.read msg.header attrs
  stored : writes = storesAlong msg.header attrs
  lockName : (∀ variant ∈ writes, variant = Variant.lock8) → (after.lock8.name.isSome = true ↔
    msg.lock8.name.isSome = true ∨ Run.Sometime Header.read namesLock msg.header attrs)
  unlockName : (∀ variant ∈ writes, variant = Variant.unlock8) → (after.unlock8.name.isSome = true ↔
    msg.unlock8.name.isSome = true ∨ Run.Sometime Header.read namesUnlock msg.header attrs)

theorem Takes.refl (msg : Msg) : Takes [] [] msg msg :=
  ⟨rfl, rfl, by simp [Run.Sometime], by simp [Run.Sometime]⟩

theorem Takes.trans {attrs attrs' : List Attribute} {writes writes' : List Variant}
    {msg middle after : Msg} (first : Takes attrs writes msg middle)
    (second : Takes attrs' writes' middle after) :
    Takes (attrs ++ attrs') (writes ++ writes') msg after where
  header := by rw [second.header, first.header, Run.run_append]
  stored := by rw [first.stored, second.stored, first.header, storesAlong_append]
  lockName := by
    intro only
    obtain ⟨before, behind⟩ := List.forall_mem_append.mp only
    rw [second.lockName behind, first.lockName before, first.header, Run.sometime_append, or_assoc]
  unlockName := by
    intro only
    obtain ⟨before, behind⟩ := List.forall_mem_append.mp only
    rw [second.unlockName behind, first.unlockName before, first.header, Run.sometime_append,
      or_assoc]

section

variable {decode : Name → Name} {address : Address}

theorem stored_only {stored : Option Variant} {variant : Variant}
    (only : ∀ other ∈ stored.toList, other = variant) : stored = none ∨ stored = some variant := by
  cases stored with
  | none => exact .inl rfl
  | some other => exact .inr (congrArg some (only other (by simp)))

theorem attribute_takes {msg after : Msg} {attr : Attribute}
    (accepted : msgProperty decode address attr.tag msg (attr.name, attr.value) = .ok after) :
    Takes [attr] (attr.stores msg.header).toList msg after := by
  have reads := msgProperty_reads accepted
  refine ⟨reads.header, by simp [storesAlong], ?_, ?_⟩
  · intro only
    simp [reads.lockName (stored_only only), Run.Sometime, namesLock]
  · intro only
    simp [reads.unlockName (stored_only only), Run.Sometime, namesUnlock]

theorem element_takes {tag : MsgTag} {properties : List (Name × Name)} {msg after : Msg}
    (accepted : properties.foldlM (msgProperty decode address tag) msg = .ok after) :
    let attrs := properties.map fun property => (⟨tag, property.1, property.2⟩ : Attribute)
    Takes attrs (msgElementWrites decode address msg attrs) msg after ∧
    after.state = msg.state := by
  induction properties generalizing msg with
  | nil =>
    obtain rfl := Except.ok.inj accepted
    exact ⟨.refl msg, rfl⟩
  | cons property rest ih =>
    rw [List.foldlM_cons] at accepted
    cases here : msgProperty decode address tag msg property with
    | error thrown =>
      rw [here] at accepted
      cases accepted
    | ok middle =>
      rw [here] at accepted
      obtain ⟨later, state⟩ := ih accepted
      have first := @attribute_takes decode address msg middle ⟨tag, property.1, property.2⟩ here
      have reads := @msgProperty_reads decode address msg middle ⟨tag, property.1, property.2⟩ here
      refine ⟨?_, state.trans reads.state⟩
      simp only [List.map_cons, msgElementWrites, here]
      exact first.trans later

theorem begun_same (msg : Msg) : ∃ state, msg.begun = { msg with state := state } := by
  unfold Msg.begun
  split_ifs
  · exact ⟨_, rfl⟩
  · exact ⟨msg.state, rfl⟩

theorem event_takes {msg : Msg} {event : MarkupEvent}
    (kept : (msgDeserializeEvent decode address msg event).state ≠ .invalid) :
    Takes event.attributes (msgEventWrites decode address msg event) msg
      (msgDeserializeEvent decode address msg event) := by
  cases event with
  | start element properties =>
    simp only [msgDeserializeEvent, msgDeserializeStartElement, msgEventWrites] at kept ⊢
    by_cases invalid : msg.state = .invalid
    · simp [invalid] at kept
    · rw [if_neg invalid] at kept
      rw [if_neg invalid, if_neg invalid]
      obtain ⟨state, begun⟩ := begun_same msg
      have same : (if msg.state = .initialized then { msg with state := .parsing } else msg) =
        msg.begun := rfl
      rw [same] at kept ⊢
      cases accepted : properties.foldlM (msgProperty decode address (msgTagType element))
          msg.begun with
      | error thrown => simp [accepted] at kept
      | ok after =>
        have takes := (element_takes accepted).1
        have header : msg.begun.header = msg.header := by
          rw [begun]
          rfl
        refine ⟨?_, ?_, ?_, ?_⟩
        · rw [takes.header, header]
          rfl
        · rw [← header]
          exact takes.stored
        · intro only
          rw [takes.lockName only, header, begun]
          rfl
        · intro only
          rw [takes.unlockName only, header, begun]
          rfl
  | text content =>
    have none : msgEventWrites decode address msg (.text content) = [] := by
      unfold msgEventWrites
      split_ifs <;> rfl
    rw [none]
    exact .refl msg
  | stop element =>
    have none : msgEventWrites decode address msg (.stop element) = [] := by
      unfold msgEventWrites
      split_ifs <;> rfl
    rw [none]
    obtain ⟨state, stopped⟩ : ∃ state,
        msgDeserializeEndElement msg element = { msg with state := state } := by
      unfold msgDeserializeEndElement
      split
      · exact ⟨msg.state, rfl⟩
      · exact ⟨msg.state, rfl⟩
      · exact ⟨_, rfl⟩
      · split_ifs
        · exact ⟨_, rfl⟩
        · exact ⟨msg.state, rfl⟩
    rw [msgDeserializeEvent, stopped]
    refine ⟨rfl, rfl, ?_, ?_⟩ <;>
      simp [Run.Sometime, MarkupEvent.attributes, Msg.lock8, Msg.unlock8]

theorem event_invalid {msg : Msg} (invalid : msg.state = .invalid) (event : MarkupEvent) :
    (msgDeserializeEvent decode address msg event).state = .invalid := by
  cases event with
  | start element properties => simp [msgDeserializeEvent, msgDeserializeStartElement, invalid]
  | text content => exact invalid
  | stop element => simp [msgDeserializeEvent, msgDeserializeEndElement, invalid]

theorem events_invalid {msg : Msg} (invalid : msg.state = .invalid) (events : List MarkupEvent) :
    (events.foldl (msgDeserializeEvent decode address) msg).state = .invalid := by
  induction events generalizing msg with
  | nil => exact invalid
  | cons event rest ih => exact ih (event_invalid invalid event)

theorem events_take {msg : Msg} {events : List MarkupEvent}
    (kept : (events.foldl (msgDeserializeEvent decode address) msg).state ≠ .invalid) :
    Takes (attributesOf events) (msgWrites decode address msg events) msg
      (events.foldl (msgDeserializeEvent decode address) msg) := by
  induction events generalizing msg with
  | nil => exact .refl msg
  | cons event rest ih =>
    have here : (msgDeserializeEvent decode address msg event).state ≠ .invalid :=
      fun invalid => kept (events_invalid invalid rest)
    rw [attributesOf, List.flatMap_cons, msgWrites]
    exact (event_takes here).trans (ih kept)

end

def Attribute.slips (attr : Attribute) (header : Header) : Prop :=
  attr.tag = .answer ∧ attr.name = msgPropElement ∧ header = ⟨.lock, 4 * msgStepIncr⟩

instance (attr : Attribute) (header : Header) : Decidable (attr.slips header) :=
  inferInstanceAs (Decidable (_ ∧ _ ∧ _))

def Settled (final header : Header) (attr : Attribute) : Prop :=
  (attr.stores header).isSome = true →
    if attr.slips header then final = ⟨.lock, 3 * msgStepIncr⟩ else header = final

instance (final header : Header) (attr : Attribute) : Decidable (Settled final header attr) :=
  inferInstanceAs (Decidable (_ → ite _ _ _))

def Variant.header : Variant → Header
  | .lock8 => ⟨.lock, msgStepIncr⟩
  | .lock16 => ⟨.lock, 2 * msgStepIncr⟩
  | .lock24 => ⟨.lock, 3 * msgStepIncr⟩
  | .lock32 => ⟨.lock, 4 * msgStepIncr⟩
  | .unlock8 => ⟨.unlock, msgStepIncr⟩
  | .discover16 => ⟨.discover, 2 * msgStepIncr⟩
  | .mngmnt8 => ⟨.mngmnt, msgStepIncr⟩

theorem variant_iff {header : Header} {variant : Variant} :
    header.variant = some variant ↔ header = variant.header := by
  constructor
  · intro selects
    unfold Header.variant at selects
    split_ifs at selects <;> (obtain rfl := Option.some.inj selects; assumption)
  · rintro rfl
    cases variant <;> rfl

theorem stores_variant {attr : Attribute} {header : Header} {variant : Variant}
    (stored : attr.stores header = some variant) :
    if attr.slips header then variant = .lock24 else header.variant = some variant := by
  obtain ⟨tag, name, value⟩ := attr
  rw [variant_iff]
  cases tag with
  | resource =>
    rw [if_neg (by simp [Attribute.slips])]
    simp only [Attribute.stores] at stored
    split_ifs at stored with lock unlock
    · exact Option.some.inj stored ▸ lock.1
    · exact Option.some.inj stored ▸ unlock.1
  | answer =>
    simp only [Attribute.stores] at stored
    split_ifs at stored with named lock16 lock24 lock32 element
    · rw [if_neg (by simp [Attribute.slips, lock16, msgStepIncr])]
      exact Option.some.inj stored ▸ lock16
    · rw [if_neg (by simp [Attribute.slips, lock24, msgStepIncr])]
      exact Option.some.inj stored ▸ lock24
    · rw [if_pos ⟨rfl, element, lock32⟩]
      exact (Option.some.inj stored).symm
    · rw [if_neg fun slips => element slips.2.1]
      exact Option.some.inj stored ▸ lock32
  | network =>
    rw [if_neg (by simp [Attribute.slips])]
    simp only [Attribute.stores] at stored
    split_ifs at stored with discover
    exact Option.some.inj stored ▸ discover.1
  | session =>
    rw [if_neg (by simp [Attribute.slips])]
    simp only [Attribute.stores] at stored
    split_ifs at stored with peerid lock8 lock16 mngmnt
    · exact Option.some.inj stored ▸ lock8
    · exact Option.some.inj stored ▸ lock16
    · exact Option.some.inj stored ▸ mngmnt
  | shutdown =>
    rw [if_neg (by simp [Attribute.slips])]
    simp only [Attribute.stores] at stored
    split_ifs at stored with mngmnt
    exact Option.some.inj stored ▸ mngmnt.1
  | msg => cases stored
  | dummy => cases stored

theorem settled_iff (final header : Header) (attr : Attribute) :
    (∀ variant ∈ attr.stores header, final.variant = some variant) ↔ Settled final header attr := by
  unfold Settled
  cases stored : attr.stores header with
  | none => simp
  | some variant =>
    have selects := stores_variant stored
    simp only [Option.mem_def, Option.some.injEq, forall_eq', Option.isSome_some, forall_const]
    split_ifs at selects ⊢
    · rw [selects, variant_iff]
      rfl
    · rw [variant_iff] at selects
      rw [variant_iff, selects, eq_comm]

theorem storesAlong_iff (final header : Header) (attrs : List Attribute) :
    (∀ variant ∈ storesAlong header attrs, final.variant = some variant) ↔
      Run.Along Header.read (Settled final) header attrs := by
  induction attrs generalizing header with
  | nil => simp [storesAlong, Run.Along]
  | cons attr rest ih =>
    rw [Run.Along, ← ih, ← settled_iff, storesAlong, List.forall_mem_append]
    simp

theorem deserialized_well_formed_iff (decode : Name → Name) (address : Address)
    (events : List MarkupEvent)
    (ready : (events.foldl (msgDeserializeEvent decode address) msgInit).state = .ready) :
    let msg := events.foldl (msgDeserializeEvent decode address) msgInit
    let attrs := attributesOf events
    let final := Run.run Header.read ⟨.null, 0⟩ attrs
    ((∀ variant ∈ msgWrites decode address msgInit events, msg.header.variant = some variant) ∧
      (msg.header = ⟨.lock, msgStepIncr⟩ → msg.lock8.name ≠ none) ∧
      (msg.header = ⟨.unlock, msgStepIncr⟩ → msg.unlock8.name ≠ none)) ↔
    Run.Along Header.read (Settled final) ⟨.null, 0⟩ attrs ∧
      (final = ⟨.lock, msgStepIncr⟩ → Run.Sometime Header.read namesLock ⟨.null, 0⟩ attrs) ∧
      (final = ⟨.unlock, msgStepIncr⟩ → Run.Sometime Header.read namesUnlock ⟨.null, 0⟩ attrs) := by
  intro msg attrs final
  have takes : Takes attrs (msgWrites decode address msgInit events) msgInit msg :=
    events_take (by simp [ready])
  have header : msg.header = final := takes.header
  have lockName := takes.lockName
  have unlockName := takes.unlockName
  rw [Option.isSome_iff_ne_none] at lockName unlockName
  have writes :
      (∀ variant ∈ msgWrites decode address msgInit events, final.variant = some variant) ↔
        Run.Along Header.read (Settled final) ⟨.null, 0⟩ attrs := by
    rw [takes.stored, storesAlong_iff]
    rfl
  rw [header, ← writes]
  refine and_congr_right fun only => ?_
  have lock : final = ⟨.lock, msgStepIncr⟩ →
      (msg.lock8.name ≠ none ↔ Run.Sometime Header.read namesLock ⟨.null, 0⟩ attrs) := by
    intro lock
    have through := lockName fun variant stored => by
      simpa [lock, Header.variant, eq_comm] using only variant stored
    simpa [show msgInit.header = ⟨.null, 0⟩ from rfl] using through
  have unlock : final = ⟨.unlock, msgStepIncr⟩ →
      (msg.unlock8.name ≠ none ↔ Run.Sometime Header.read namesUnlock ⟨.null, 0⟩ attrs) := by
    intro unlock
    have through := unlockName fun variant stored => by
      simpa [unlock, Header.variant, eq_comm] using only variant stored
    simpa [show msgInit.header = ⟨.null, 0⟩ from rfl] using through
  exact and_congr (forall_congr' lock) (forall_congr' unlock)

theorem deserialized_well_formed_lock :
    let msg := lockFeed.events.foldl (msgDeserializeEvent decodeX .heap) msgInit
    msg.state = .ready ∧ msgCheckProtocol msg true = true ∧ msg.header = ⟨.lock, 8⟩ ∧
      (∀ variant ∈ msgWrites decodeX .heap msgInit lockFeed.events,
      msg.header.variant = some variant) ∧
      msg.lock8.name ≠ none := by
  intro msg
  have whole := (deserialized_well_formed_iff decodeX .heap lockFeed.events (by decide)).mpr
    (by decide)
  exact ⟨by decide, by decide, by decide, whole.1, whole.2.1 (by decide)⟩

-- A LOCK without resource, and an UNLOCK that a second header makes a LOCK.
theorem deserialized_without_name :
    let nameless : List MarkupEvent :=
      [.start msgTagMsg [(msgPropLevel, ['3']), (msgPropVerb, ['1']), (msgPropStep, ['8'])],
        .stop msgTagMsg]
    let rewritten : List MarkupEvent :=
      [.start msgTagMsg [(msgPropLevel, ['3']), (msgPropVerb, ['2']), (msgPropStep, ['8'])],
        .start msgTagResource [(msgPropName, encodedX), (msgPropRollback, ['1'])],
        .stop msgTagResource,
        .start msgTagMsg [(msgPropVerb, ['1'])], .stop msgTagMsg, .stop msgTagMsg]
    let first := nameless.foldl (msgDeserializeEvent decodeX .heap) msgInit
    let second := rewritten.foldl (msgDeserializeEvent decodeX .heap) msgInit
    (first.state = .ready ∧ msgCheckProtocol first true = true ∧ first.header = ⟨.lock, 8⟩ ∧
      first.lock8.name = none) ∧
      second.state = .ready ∧ msgCheckProtocol second true = true ∧
      second.header.variant = some .lock8 ∧
        msgWrites decodeX .heap msgInit rewritten = [.unlock8, .unlock8] := by
  decide

end Flom
