import Flom.Lib.Base64
import Flom.MsgSerialize
import Flom.Slots

set_option autoImplicit false

namespace Flom

open Markup (Lexeme IsName IsValue AreProperties)

def CString (text : Name) : Prop := ∀ c ∈ text, 0 < c.toNat ∧ c.toNat < 256

instance (text : Name) : Decidable (CString text) :=
  decidable_of_iff (text.all (fun c => 0 < c.toNat && c.toNat < 256) = true) (by simp [CString])

instance (value : Int) : Decidable (gintFits value) := inferInstanceAs (Decidable (_ ∧ _))

def MarkupEvent.ofEvent : Markup.Event → MarkupEvent
  | .start tag properties => .start tag properties
  | .stop tag => .stop tag

def MarkupEvent.isTag : MarkupEvent → Bool
  | .text _ => false
  | .start _ _ | .stop _ => true

structure MarkupReads (parse : Name → Feed) : Prop where
  wellFormed : ∀ document : Markup.Document, document.Proper →
    (parse (Markup.text document.lexemes)).wellFormed = true
  events : ∀ document : Markup.Document, document.Proper →
    (parse (Markup.text document.lexemes)).events.filter MarkupEvent.isTag =
      (Markup.events document.lexemes).map MarkupEvent.ofEvent

structure Base64Codec (encode decode : Name → Name) : Prop where
  inverse : ∀ text, CString text → decode (encode text) = text
  alphabet : ∀ text, CString text → ∀ symbol ∈ encode text, Base64.Symbolic symbol

def Msg.names (msg : Msg) : List Name :=
  match msg.verb with
  | .lock => if msg.step = msgStepIncr then msg.lock8.name.toList else []
  | .unlock => msg.unlock8.name.toList
  | _ => []

structure Msg.Typed (msg : Msg) : Prop where
  mode : ∃ value, gintFits value ∧ msg.lock8.mode = LockMode.ofInt value
  wait : gintFits msg.lock8.wait
  create : gintFits msg.lock8.create
  rollback : gintFits msg.unlock8.rollback
  answers : ∀ answer ∈ [msg.lock16, msg.lock24, msg.lock32],
    ∃ value, gintFits value ∧ answer.rc = Rc.ofInt value
  port : msg.discover16.port < 2 ^ 16
  immediate : ∀ immediate ∈ msg.mngmnt8.shutdown, gintFits immediate
  names : ∀ name ∈ msg.names, CString name

def Msg.strings (msg : Msg) : List Name :=
  match msg.verb with
  | .lock =>
    if msg.step = msgStepIncr then msg.lock8.peerid.toList
    else if msg.step = 2 * msgStepIncr then msg.peerid16.toList ++ msg.lock16.element.toList
    else if msg.step = 3 * msgStepIncr then msg.lock24.element.toList
    else msg.lock32.element.toList
  | .discover => if msg.step = msgStepIncr then [] else msg.discover16.address.toList
  | .mngmnt => msg.mngmnt8.peerid.toList
  | _ => []

def carriedLock8 (lock8 : Lock8) : Lock8 :=
  let shared : Lock8 := ⟨some (lock8.peerid.getD []), lock8.name, .nl, lock8.wait, 0, lock8.create,
    lock8.lifespan⟩
  match rsrcGetType (lock8.name.getD []) with
  | .simple | .hier => { shared with mode := lock8.mode }
  | .numeric => { shared with quantity := lock8.quantity }
  | _ => shared

def Answer.body16 (address : Address) (peerid : Option Name) (answer : Answer) : Body where
  first := .ofText address peerid
  second := ⟨.rc answer.rc, .int 0, none⟩
  third := answer.element.elim Body.zero.third (.string address)
  quantity := 0
  create := 0
  lifespan := 0

def Answer.body24 (address : Address) (answer : Answer) : Body :=
  { Body.zero with
    first := ⟨.rc answer.rc, .int 0, none⟩
    second := .ofText address answer.element }

def Discover16.body (address : Address) (discover16 : Discover16) : Body :=
  { Body.zero with
    first := .ofText address discover16.address, second := ⟨.int discover16.port, .int 0, none⟩ }

def Mngmnt8.body (address : Address) (mngmnt8 : Mngmnt8) : Body :=
  { Body.zero with
    first := .ofText address mngmnt8.peerid
    second := mngmnt8.shutdown.elim .null fun immediate =>
      ⟨.int mngmntActionShutdown, .int immediate, none⟩ }

def carried (address : Address) (msg : Msg) : Msg :=
  let blank :=
    { msgInit with state := .ready, level := msg.level, verb := msg.verb, step := msg.step }
  match msg.verb with
  | .lock =>
    if msg.step = msgStepIncr then { blank with body := (carriedLock8 msg.lock8).body address }
    else if msg.step = 2 * msgStepIncr then
      { blank with body := msg.lock16.body16 address (some (msg.peerid16.getD [])) }
    else if msg.step = 3 * msgStepIncr then { blank with body := msg.lock24.body24 address }
    else { blank with body := msg.lock32.body24 address }
  | .unlock => { blank with body := msg.unlock8.body address }
  | .discover =>
    if msg.step = msgStepIncr then blank
    else
      let network : Discover16 := ⟨some (msg.discover16.address.getD []), msg.discover16.port⟩
      { blank with body := network.body address }
  | .mngmnt =>
    let request : Mngmnt8 := ⟨some (msg.mngmnt8.peerid.getD []), msg.mngmnt8.shutdown⟩
    { blank with body := request.body address }
  | _ => blank

theorem toDigits_digits (value : Nat) : ∀ digit ∈ Nat.toDigits 10 value, digit.isDigit = true :=
  fun _ member => Nat.isDigit_of_mem_toDigits (by decide) (by decide) member

theorem decimalValue_toDigits (value : Nat) :
    decimalValue ((Nat.toDigits 10 value).takeWhile Char.isDigit) = value := by
  rw [List.takeWhile_eq_self_iff.mpr (toDigits_digits value), decimalValue_eq,
    Nat.ofDigitChars_ten_toDigits]

theorem strtol_toDigits (value : Nat) :
    strtol (Nat.toDigits 10 value) = (min value longMax : Nat) := by
  rw [strtol_digits Nat.toDigits_ne_nil (toDigits_digits value), decimalValue_eq,
    Nat.ofDigitChars_ten_toDigits]

theorem strtol_decimalText {value : Int} (bounded : gintFits value) :
    strtol (decimalText value) = value := by
  obtain ⟨above, below⟩ := bounded
  have large : longMax = 2 ^ 63 - 1 := rfl
  rw [decimalText]
  split_ifs with negative
  · have whole := decimalValue_toDigits value.natAbs
    rw [strtol, List.dropWhile_cons_of_neg (by decide)]
    simp only [whole]
    omega
  · rw [strtol_toDigits]
    omega

theorem strtoint_decimalText {value : Int} (bounded : gintFits value) :
    (strtoint (decimalText value)).toInt = value := by
  rw [strtoint, strtol_decimalText bounded]
  exact Int32.toInt_ofInt_of_le bounded.1 bounded.2

theorem code_ofInt (value : Int) : (Rc.ofInt value).code = value := by
  unfold Rc.ofInt
  split_ifs <;> simp [Rc.code, *]

theorem gintFits_toInt (value : Int32) : gintFits value.toInt :=
  ⟨Int32.le_toInt value, Int32.toInt_lt value⟩

theorem strtoint_toInt (value : Int32) : strtoint (decimalText value.toInt) = value :=
  Int32.toInt_inj.mp (strtoint_decimalText (gintFits_toInt value))

section

variable (decode : Name → Name) (address : Address) {msg : Msg} (value : Name)

theorem msgHeaderProperty_level {value : Name} (level : (strtoint value).toInt = msgLevel) :
    msgHeaderProperty msg msgPropLevel value = .ok { msg with level := msgLevel } := by
  simp only [msgHeaderProperty, level, if_pos]

theorem msgHeaderProperty_verb :
    msgHeaderProperty msg msgPropVerb value = .ok
      { msg with verb := Verb.ofInt (strtoint value).toInt } := by
  rw [msgHeaderProperty, if_neg (by decide), if_pos rfl]

theorem msgHeaderProperty_step :
    msgHeaderProperty msg msgPropStep value = .ok { msg with step := (strtoint value).toInt } := by
  rw [msgHeaderProperty, if_neg (by decide), if_neg (by decide), if_pos rfl]

theorem msgResourceProperty_name (verb : msg.verb = .lock) (step : msg.step = msgStepIncr) :
    msgResourceProperty decode address msg msgPropName value =
      .ok { msg with body.second := .string address (decode value) } := by
  rw [msgResourceProperty, if_pos ⟨.inl verb, step⟩, if_pos rfl, if_pos verb]

theorem msgResourceProperty_mode (verb : msg.verb = .lock) (step : msg.step = msgStepIncr) :
    msgResourceProperty decode address msg msgPropMode value =
      .ok { msg with body.third.low := .mode (LockMode.ofInt (strtoint value).toInt) } := by
  rw [msgResourceProperty, if_pos ⟨.inl verb, step⟩, if_neg (by decide), if_pos rfl, msgOnly,
    if_pos verb]

theorem msgResourceProperty_wait (verb : msg.verb = .lock) (step : msg.step = msgStepIncr) :
    msgResourceProperty decode address msg msgPropWait value =
      .ok { msg with body.third.high := .int (strtoint value).toInt } := by
  rw [msgResourceProperty, if_pos ⟨.inl verb, step⟩, if_neg (by decide), if_neg (by decide),
    if_neg (by decide),
    if_pos rfl, msgOnly, if_pos verb]

theorem msgResourceProperty_quantity (verb : msg.verb = .lock) (step : msg.step = msgStepIncr) :
    msgResourceProperty decode address msg msgPropQuantity value =
      .ok { msg with body.quantity := strtoint value } := by
  rw [msgResourceProperty, if_pos ⟨.inl verb, step⟩, if_neg (by decide), if_neg (by decide),
    if_neg (by decide),
    if_neg (by decide), if_pos rfl, msgOnly, if_pos verb]

theorem msgResourceProperty_create (verb : msg.verb = .lock) (step : msg.step = msgStepIncr) :
    msgResourceProperty decode address msg msgPropCreate value =
      .ok { msg with body.create := (strtoint value).toInt } := by
  rw [msgResourceProperty, if_pos ⟨.inl verb, step⟩, if_neg (by decide), if_neg (by decide),
    if_neg (by decide),
    if_neg (by decide), if_neg (by decide), if_pos rfl, msgOnly, if_pos verb]

theorem msgResourceProperty_lifespan (verb : msg.verb = .lock) (step : msg.step = msgStepIncr) :
    msgResourceProperty decode address msg msgPropLifespan value =
      .ok { msg with body.lifespan := strtoint value } := by
  rw [msgResourceProperty, if_pos ⟨.inl verb, step⟩, if_neg (by decide), if_neg (by decide),
    if_neg (by decide),
    if_neg (by decide), if_neg (by decide), if_neg (by decide), if_pos rfl, msgOnly, if_pos verb]

theorem msgResourceProperty_unlock_name (verb : msg.verb = .unlock)
    (step : msg.step = msgStepIncr) :
    msgResourceProperty decode address msg msgPropName value =
      .ok { msg with body.first := .string address (decode value) } := by
  rw [msgResourceProperty, if_pos ⟨.inr verb, step⟩, if_pos rfl, if_neg (by rw [verb]; decide)]

theorem msgResourceProperty_rollback (verb : msg.verb = .unlock) (step : msg.step = msgStepIncr) :
    msgResourceProperty decode address msg msgPropRollback value =
      .ok { msg with body.second.low := .int (strtoint value).toInt } := by
  rw [msgResourceProperty, if_pos ⟨.inr verb, step⟩, if_neg (by decide), if_neg (by decide),
    if_pos rfl, msgOnly,
    if_pos verb]

end

theorem ok_bind (msg : Msg) (next : Msg → Deserialized) : Except.ok msg >>= next = next msg := rfl

theorem lock8_properties {encode decode : Name → Name} {address : Address}
    (codec : Base64Codec encode decode) {msg : Msg} (typed : msg.Typed) {resource : Name}
    (named : msg.lock8.name = some resource) (bytes : CString resource)
    (known : rsrcGetType resource ≠ .null) {started : Msg} (verb : started.verb = .lock)
    (step : started.step = msgStepIncr)
    (blank :
      started.body = { Body.zero with first := .string address (msg.lock8.peerid.getD []) }) :
    (msgLock8Properties encode msg.lock8 resource).foldlM
      (msgProperty decode address .resource) started =
        .ok { started with body := (carriedLock8 msg.lock8).body address } := by
  have name := codec.inverse resource bytes
  obtain ⟨number, bounded, mode⟩ := typed.mode
  have modes :
      LockMode.ofInt (strtoint (decimalText msg.lock8.mode.index)).toInt = msg.lock8.mode := by
    rw [mode, ofInt_index, strtoint_decimalText bounded]
  have wait := strtoint_decimalText typed.wait
  have create := strtoint_decimalText typed.create
  cases type : rsrcGetType resource with
  | null => exact absurd type known
  | simple | numeric | set | hier | sequence | timestamp =>
    simp only [msgLock8Properties, carriedLock8, named, Option.getD_some, type, List.foldlM_cons,
      List.foldlM_nil,
      msgProperty, msgResourceProperty_name, msgResourceProperty_mode, msgResourceProperty_wait,
      msgResourceProperty_quantity, msgResourceProperty_create, msgResourceProperty_lifespan, verb,
        step, blank, name,
      modes, wait, create, strtoint_toInt, ok_bind]
    rfl

section

variable {decode : Name → Name} {address : Address}

def deserializeLexemes (decode : Name → Name) (address : Address) (msg : Msg)
    (lexemes : List Lexeme) : Msg :=
  ((Markup.events lexemes).map MarkupEvent.ofEvent).foldl (msgDeserializeEvent decode address) msg

theorem deserializeLexemes_append (decode : Name → Name) (address : Address) (msg : Msg)
    (front rest : List Lexeme) :
    deserializeLexemes decode address msg (front ++ rest) =
      deserializeLexemes decode address (deserializeLexemes decode address msg front) rest := by
  simp only [deserializeLexemes, Markup.events, List.flatMap_append, List.map_append,
    List.foldl_append]

theorem startElement_ok {msg after : Msg} {element : Name} {properties : List (Name × Name)}
    (parsing : msg.state = .parsing)
    (accepted :
      properties.foldlM (msgProperty decode address (msgTagType element)) msg = .ok after) :
    msgDeserializeStartElement decode address msg element properties = after := by
  simp [msgDeserializeStartElement, parsing, accepted]

theorem deserializeLexemes_empty {msg after : Msg} {tag : Name} {properties : List (Name × Name)}
    {blanks : Nat} (parsing : msg.state = .parsing)
    (accepted : properties.foldlM (msgProperty decode address (msgTagType tag)) msg = .ok after)
    (still : after.state = .parsing) (inner : tag ≠ msgTagMsg) :
    deserializeLexemes decode address msg [.empty tag properties blanks] = after := by
  have stopped : msgDeserializeEndElement after tag = after := by
    rw [msgDeserializeEndElement, still]
    exact if_neg inner
  change msgDeserializeEndElement (msgDeserializeStartElement decode address msg tag properties)
    tag = after
  rw [startElement_ok parsing accepted, stopped]

def parsingMsg (msg : Msg) : Msg :=
  { msgInit with state := .parsing, level := msg.level, verb := msg.verb, step := msg.step }

theorem Sent.header {encode : Name → Name} {msg : Msg} {body : List Lexeme}
    (sent : Sent encode msg body) :
    Verb.ofInt msg.verb.index = msg.verb ∧ gintFits msg.verb.index ∧ gintFits msg.step := by
  cases sent with
  | ping verb step =>
    rcases step with step | step
    · rw [verb, step]
      decide
    · rw [verb, step]
      decide
  | lock8 verb step | lock16 verb step | lock24 verb step | lock32 verb step | unlock8 verb step
  | discover8 verb step | discover16 verb step | mngmnt8 verb step =>
    rw [verb, step]
    decide

theorem Sent.opened {encode : Name → Name} {msg : Msg} {body : List Lexeme}
    (sent : Sent encode msg body) (level : msg.level = msgLevel) :
    deserializeLexemes decode address msgInit [.instruction msgDeclaration, msgHeader msg] =
    parsingMsg msg := by
  obtain ⟨verb, verbs, steps⟩ := sent.header
  have leveled : (strtoint (decimalText msg.level)).toInt = msgLevel := by
    rw [level]
    decide
  have accepted : [(msgPropLevel, decimalText msg.level), (msgPropVerb, decimalText msg.verb.index),
      (msgPropStep, decimalText msg.step)].foldlM (msgProperty decode address .msg)
        { msgInit with state := .parsing } = .ok (parsingMsg msg) := by
    simp only [List.foldlM_cons, List.foldlM_nil, msgProperty, msgHeaderProperty_level leveled,
      msgHeaderProperty_verb, msgHeaderProperty_step, strtoint_decimalText verbs,
      strtoint_decimalText steps, verb,
      ok_bind, ← level]
    rfl
  change msgDeserializeEvent decode address msgInit (.start msgTagMsg _) = _
  rw [msgDeserializeEvent, msgDeserializeStartElement, if_neg (by decide)]
  have tag : msgTagType msgTagMsg = .msg := by decide
  have begun : (if msgInit.state = .initialized then { msgInit with state := .parsing }
    else msgInit) =
      { msgInit with state := .parsing } := rfl
  simp only [begun, tag, accepted]

theorem deserializeLexemes_pair (decode : Name → Name) (address : Address) (msg : Msg)
    (first second : Lexeme) :
    deserializeLexemes decode address msg [first, second] =
      deserializeLexemes decode address (deserializeLexemes decode address msg [first]) [second] :=
  deserializeLexemes_append decode address msg [first] [second]

theorem msgTagType_session : msgTagType msgTagSession = .session := by decide

theorem msgTagType_resource : msgTagType msgTagResource = .resource := by decide

theorem msgTagType_answer : msgTagType msgTagAnswer = .answer := by decide

theorem msgTagType_network : msgTagType msgTagNetwork = .network := by decide

theorem msgTagType_shutdown : msgTagType msgTagShutdown = .shutdown := by decide

theorem session_read (msg : Msg) (peerid : Option Name) (parsing : msg.state = .parsing)
    (session : (msg.verb = .lock ∧ (msg.step = msgStepIncr ∨ msg.step = 2 * msgStepIncr)) ∨
      (msg.verb = .mngmnt ∧ msg.step = msgStepIncr)) :
    deserializeLexemes decode address msg [msgSession peerid] =
      { msg with body.first := .string address (peerid.getD []) } := by
  refine deserializeLexemes_empty parsing ?_ parsing (by decide)
  rw [msgTagType_session, List.foldlM_cons, msgProperty, msgSessionProperty, if_pos rfl,
    if_pos session]
  rfl

theorem answer_read {msg : Msg} {answer : Answer} (store : Answer → Msg)
    (parsing : msg.state = .parsing) (code : ∃ value, gintFits value ∧ answer.rc = Rc.ofInt value)
    (rcs : ∀ value, msgAnswerProperty address msg msgPropRc value =
      .ok (store ⟨Rc.ofInt (strtoint value).toInt, none⟩))
    (elements : ∀ rc value,
      msgAnswerProperty address (store ⟨rc, none⟩) msgPropElement value = .ok
        (store ⟨rc, some value⟩))
    (still : ∀ answer, (store answer).state = .parsing) :
    deserializeLexemes decode address msg [msgAnswerTag answer] = store answer := by
  obtain ⟨value, bounded, coded⟩ := code
  have read : Rc.ofInt (strtoint (decimalText answer.rc.code)).toInt = answer.rc := by
    rw [coded, code_ofInt, strtoint_decimalText bounded]
  obtain ⟨rc, element⟩ := answer
  cases element with
  | none =>
    refine deserializeLexemes_empty parsing ?_ (still _) (by decide)
    simp only [List.foldlM_cons, List.foldlM_nil, msgTagType_answer, msgProperty, rcs, read,
      ok_bind]
    rfl
  | some element =>
    refine deserializeLexemes_empty parsing ?_ (still _) (by decide)
    simp only [List.foldlM_cons, List.foldlM_nil, msgTagType_answer, msgProperty, rcs, read,
      elements, ok_bind]
    rfl

theorem Sent.filled {encode : Name → Name} (codec : Base64Codec encode decode) {msg : Msg}
    (typed : msg.Typed) {body : List Lexeme} (sent : Sent encode msg body) :
    deserializeLexemes decode address (parsingMsg msg) body =
    { carried address msg with state := .parsing } := by
  cases sent with
  | lock8 verb step named known =>
    let session := { parsingMsg msg with body.first := .string address (msg.lock8.peerid.getD []) }
    rename_i resource
    have bytes := typed.names resource (by simp [Msg.names, verb, step, named])
    have resources :=
      lock8_properties codec typed named bytes known (show session.verb = .lock from verb) step rfl
    rw [deserializeLexemes_pair, session_read (parsingMsg msg) _ rfl (.inl ⟨verb, .inl step⟩)]
    refine (deserializeLexemes_empty rfl (msgTagType_resource ▸ resources) rfl (by decide)).trans ?_
    simp only [session, carried, parsingMsg, verb, step, if_pos]
  | lock16 verb step =>
    rw [deserializeLexemes_pair, session_read (parsingMsg msg) _ rfl (.inl ⟨verb, .inr step⟩)]
    refine (answer_read (fun answer =>
      { parsingMsg msg with body := answer.body16 address (some (msg.peerid16.getD [])) }) rfl
      (typed.answers _ (by simp)) (fun value => ?_) (fun rc value => ?_) fun _ => rfl).trans ?_
    · simp [msgAnswerProperty, parsingMsg, verb, step]
      rfl
    · simp [msgAnswerProperty, parsingMsg, verb, step, msgPropRc, msgPropElement]
      rfl
    · simp [carried, parsingMsg, verb, step, msgStepIncr]
  | lock24 verb step =>
    refine (answer_read (fun answer => { parsingMsg msg with body := answer.body24 address }) rfl
      (typed.answers _ (by simp)) (fun value => ?_) (fun rc value => ?_) fun _ => rfl).trans ?_
    · simp [msgAnswerProperty, parsingMsg, verb, step, msgStepIncr]
      rfl
    · simp [msgAnswerProperty, parsingMsg, verb, step, msgStepIncr, msgPropRc, msgPropElement]
      rfl
    · simp [carried, parsingMsg, verb, step, msgStepIncr]
  | lock32 verb step =>
    refine (answer_read (fun answer => { parsingMsg msg with body := answer.body24 address }) rfl
      (typed.answers _ (by simp)) (fun value => ?_) (fun rc value => ?_) fun _ => rfl).trans ?_
    · simp [msgAnswerProperty, parsingMsg, verb, step, msgStepIncr]
      rfl
    · simp [msgAnswerProperty, parsingMsg, verb, step, msgStepIncr, msgPropRc, msgPropElement]
      rfl
    · simp [carried, parsingMsg, verb, step, msgStepIncr]
  | unlock8 verb step named =>
    rename_i resource
    have name := codec.inverse resource (typed.names resource (by simp [Msg.names, verb, named]))
    have accepted : [(msgPropName, encode resource),
      (msgPropRollback, decimalText msg.unlock8.rollback)].foldlM
      (msgProperty decode address (msgTagType msgTagResource)) (parsingMsg msg) =
          .ok { parsingMsg msg with body := msg.unlock8.body address } := by
      simp only [List.foldlM_cons, List.foldlM_nil, msgTagType_resource, msgProperty, parsingMsg,
        msgResourceProperty_unlock_name, msgResourceProperty_rollback, verb, step, name,
        strtoint_decimalText typed.rollback, ok_bind, Unlock8.body, named]
      rfl
    refine (deserializeLexemes_empty rfl accepted rfl (by decide)).trans ?_
    simp only [carried, parsingMsg, verb, step]
  | ping verb step =>
    simp only [carried, parsingMsg, verb]
    rfl
  | discover8 verb step =>
    simp only [carried, parsingMsg, verb, step, if_pos]
    rfl
  | discover16 verb step =>
    have small : msg.discover16.port < 2 ^ 16 := typed.port
    have port : (Word.int 0).putPort (strtol (decimalText msg.discover16.port)) =
        .int msg.discover16.port := by
      rw [strtol_decimalText ⟨by omega, by omega⟩, Word.putPort, Word.toInt]
      congr 1
      omega
    have accepted : [(msgPropAddress, msg.discover16.address.getD []),
        (msgPropPort, decimalText msg.discover16.port)].foldlM
          (msgProperty decode address (msgTagType msgTagNetwork)) (parsingMsg msg) =
        .ok { parsingMsg msg with
          body := Discover16.body address
              ⟨some (msg.discover16.address.getD []), msg.discover16.port⟩ } := by
      simp [msgTagType_network, msgProperty, msgNetworkProperty, parsingMsg, verb, step, ok_bind,
        msgPropPort, msgPropAddress, Discover16.body, msgInit, Body.zero, Cell.null, port]
      rfl
    refine (deserializeLexemes_empty rfl accepted rfl (by decide)).trans ?_
    simp [carried, parsingMsg, verb, step, msgStepIncr]
  | mngmnt8 verb step action =>
    rename_i immediate
    have accepted : [(msgPropImmediate, decimalText immediate)].foldlM
        (msgProperty decode address (msgTagType msgTagShutdown))
          { parsingMsg msg with body.first := .string address (msg.mngmnt8.peerid.getD []) } =
        .ok { parsingMsg msg with
          body := Mngmnt8.body address ⟨some (msg.mngmnt8.peerid.getD []), some immediate⟩ } := by
      have read := strtoint_decimalText (typed.immediate immediate (by simp [action]))
      simp [msgTagType_shutdown, msgProperty, msgShutdownProperty, parsingMsg, verb, step, read]
      rfl
    rw [deserializeLexemes_pair, session_read (parsingMsg msg) _ rfl (.inr ⟨verb, step⟩)]
    refine (deserializeLexemes_empty rfl accepted rfl (by decide)).trans ?_
    simp only [carried, parsingMsg, verb, step, action]

end

theorem valueSymbol_of {symbol : Char} (above : 32 ≤ symbol.toNat) (below : symbol.toNat < 127)
    (plain : symbol ∉ Markup.special) : Markup.valueSymbol symbol = true := by
  have ordinary : Markup.control symbol = false := by
    simp only [Markup.control, Bool.or_eq_false_iff, Bool.and_eq_false_iff, decide_eq_false_iff_not]
    omega
  rw [Markup.valueSymbol, ordinary, decide_eq_true plain]
  rfl

theorem not_special {symbol : Char}
    (other : symbol.toNat ≠ 34 ∧ symbol.toNat ≠ 38 ∧ symbol.toNat ≠ 39 ∧ symbol.toNat ≠ 60 ∧
      symbol.toNat ≠ 62) :
    symbol ∉ Markup.special := by
  intro member
  simp only [Markup.special, List.mem_cons, List.not_mem_nil, or_false] at member
  rcases member with rfl | rfl | rfl | rfl | rfl <;> simp at other

theorem alphanum_bounds {symbol : Char} (letter : symbol.isAlphanum = true) :
    48 ≤ symbol.toNat ∧ symbol.toNat ≤ 57 ∨ 65 ≤ symbol.toNat ∧ symbol.toNat ≤ 90 ∨
      97 ≤ symbol.toNat ∧ symbol.toNat ≤ 122 := by
  have upper : symbol.isUpper = decide (65 ≤ symbol.val ∧ symbol.val ≤ 90) := rfl
  have lower : symbol.isLower = (decide (97 ≤ symbol.val) && decide (symbol.val ≤ 122)) := rfl
  have kinds : symbol.isAlphanum = (symbol.isUpper || symbol.isLower || symbol.isDigit) := rfl
  rw [kinds, Bool.or_eq_true, Bool.or_eq_true, upper, lower, Char.isDigit_iff_toNat] at letter
  simp only [Bool.and_eq_true, decide_eq_true_eq, UInt32.le_iff_toNat_le] at letter
  change ((65 ≤ symbol.toNat ∧ symbol.toNat ≤ 90) ∨ 97 ≤ symbol.toNat ∧ symbol.toNat ≤ 122) ∨
    48 ≤ symbol.toNat ∧ symbol.toNat ≤ 57 at letter
  omega

theorem isValue_digits (value : Nat) : IsValue (Nat.toDigits 10 value) := by
  intro digit member
  have bounds := Char.isDigit_iff_toNat.mp (toDigits_digits value digit member)
  have low : '0'.toNat = 48 := rfl
  have high : '9'.toNat = 57 := rfl
  exact valueSymbol_of (by omega) (by omega) (not_special (by omega))

theorem isValue_decimalText (value : Int) : IsValue (decimalText value) := by
  rw [decimalText]
  split_ifs
  · exact List.forall_mem_cons.mpr ⟨by decide, isValue_digits _⟩
  · exact isValue_digits _

theorem isValue_nil : IsValue [] := fun _ member => absurd member List.not_mem_nil

theorem isValue_getD {text : Option Name} (plain : ∀ name ∈ text.toList, IsValue name) :
    IsValue (text.getD []) := by
  cases text with
  | none => exact isValue_nil
  | some name => exact plain name (by simp)

theorem isValue_encode {encode decode : Name → Name} (codec : Base64Codec encode decode)
    {text : Name} (bytes : CString text) : IsValue (encode text) := by
  intro symbol member
  rcases codec.alphabet text bytes symbol member with letter | rfl | rfl | rfl
  · have bounds := alphanum_bounds letter
    exact valueSymbol_of (by omega) (by omega) (not_special (by omega))
  · decide
  · decide
  · decide

theorem areProperties {properties : List (Name × Name)} {names : List Name}
    (named : properties.map Prod.fst = names) (proper : names.Nodup ∧ ∀ name ∈ names, IsName name)
    (values : ∀ value ∈ properties.map Prod.snd, IsValue value) :
    AreProperties properties where
  names property member := by
    have known : property.1 ∈ names := named ▸ List.mem_map_of_mem member
    exact proper.2 _ known
  values property member := values _ (List.mem_map_of_mem member)
  distinct := named ▸ proper.1

theorem msgSession_plain {peerid : Option Name} (plain : ∀ name ∈ peerid.toList, IsValue name) :
    (msgSession peerid).Plain :=
  ⟨by decide, areProperties (show _ = [msgPropPeerid] from rfl) (by decide)
    (List.forall_mem_singleton.mpr (isValue_getD plain))⟩

theorem msgAnswerTag_plain {answer : Answer}
    (plain : ∀ name ∈ answer.element.toList, IsValue name) :
    (msgAnswerTag answer).Plain := by
  unfold msgAnswerTag
  have rc := isValue_decimalText answer.rc.code
  split
  · exact ⟨by decide,
      areProperties (show _ = [msgPropRc] from rfl) (by decide) (List.forall_mem_singleton.mpr rc)⟩
  · next element found =>
    refine ⟨by decide, areProperties (show _ = [msgPropRc, msgPropElement] from rfl) (by decide) ?_⟩
    exact List.forall_mem_cons.mpr
      ⟨rc, List.forall_mem_singleton.mpr (plain element (by simp [found]))⟩

theorem msgResource_plain {encode decode : Name → Name} (codec : Base64Codec encode decode)
    {lock8 : Lock8} {resource : Name} (bytes : CString resource) :
    (msgResource (msgLock8Properties encode lock8 resource)).Plain := by
  refine ⟨by decide, ?_⟩
  have values : ∀ value ∈ (msgLock8Properties encode lock8 resource).map Prod.snd,
      IsValue value := by
    unfold msgLock8Properties
    split <;> simp only [List.map_cons, List.map_nil, List.forall_mem_cons,
      isValue_encode codec bytes,
      isValue_decimalText, List.not_mem_nil, IsEmpty.forall_iff, implies_true, and_self]
  unfold msgLock8Properties at values ⊢
  split at values
  · exact areProperties
      (show _ = [msgPropName, msgPropMode, msgPropWait, msgPropCreate, msgPropLifespan] from rfl)
      (by decide) values
  · exact areProperties
      (show _ = [msgPropName, msgPropMode, msgPropWait, msgPropCreate, msgPropLifespan] from rfl)
      (by decide) values
  · exact areProperties
      (show _ = [msgPropName, msgPropWait, msgPropQuantity, msgPropCreate, msgPropLifespan]
        from rfl) (by decide) values
  · exact areProperties (show _ = [msgPropName, msgPropWait, msgPropCreate, msgPropLifespan]
      from rfl) (by decide) values

theorem Sent.plain {encode decode : Name → Name} (codec : Base64Codec encode decode) {msg : Msg}
    (names : ∀ name ∈ msg.names, CString name)
    (strings : ∀ name ∈ msg.strings, IsValue name) {body : List Lexeme}
    (sent : Sent encode msg body) : ∀ lexeme ∈ body, lexeme.Plain := by
  cases sent with
  | lock8 verb step named known =>
    rename_i resource
    simp only [Msg.strings, verb, step, if_pos] at strings
    have bytes := names resource (by simp [Msg.names, verb, step, named])
    exact List.forall_mem_cons.mpr ⟨msgSession_plain strings,
      List.forall_mem_singleton.mpr (msgResource_plain codec bytes)⟩
  | lock16 verb step =>
    have texts : ∀ name ∈ msg.peerid16.toList ++ msg.lock16.element.toList, IsValue name := by
      simpa [Msg.strings, verb, step, msgStepIncr] using strings
    obtain ⟨peerid, element⟩ := List.forall_mem_append.mp texts
    exact List.forall_mem_cons.mpr ⟨msgSession_plain peerid,
      List.forall_mem_singleton.mpr (msgAnswerTag_plain element)⟩
  | lock24 verb step =>
    have texts : ∀ name ∈ msg.lock24.element.toList, IsValue name := by
      simpa [Msg.strings, verb, step, msgStepIncr] using strings
    exact List.forall_mem_singleton.mpr (msgAnswerTag_plain texts)
  | lock32 verb step =>
    have texts : ∀ name ∈ msg.lock32.element.toList, IsValue name := by
      simpa [Msg.strings, verb, step, msgStepIncr] using strings
    exact List.forall_mem_singleton.mpr (msgAnswerTag_plain texts)
  | unlock8 verb step named =>
    rename_i resource
    have name := isValue_encode codec (names resource (by simp [Msg.names, verb, named]))
    have rollback := isValue_decimalText msg.unlock8.rollback
    exact List.forall_mem_singleton.mpr ⟨by decide,
      areProperties (show _ = [msgPropName, msgPropRollback] from rfl) (by decide)
        (List.forall_mem_cons.mpr ⟨name, List.forall_mem_singleton.mpr rollback⟩)⟩
  | ping verb step => exact fun _ member => absurd member List.not_mem_nil
  | discover8 verb step => exact fun _ member => absurd member List.not_mem_nil
  | discover16 verb step =>
    have texts : ∀ name ∈ msg.discover16.address.toList, IsValue name := by
      simpa [Msg.strings, verb, step, msgStepIncr] using strings
    have port := isValue_decimalText msg.discover16.port
    exact List.forall_mem_singleton.mpr ⟨by decide,
      areProperties (show _ = [msgPropAddress, msgPropPort] from rfl) (by decide)
        (List.forall_mem_cons.mpr ⟨isValue_getD texts, List.forall_mem_singleton.mpr port⟩)⟩
  | mngmnt8 verb step action =>
    simp only [Msg.strings, verb] at strings
    exact List.forall_mem_cons.mpr ⟨msgSession_plain strings,
      List.forall_mem_singleton.mpr ⟨by decide,
      areProperties (show _ = [msgPropImmediate] from rfl) (by decide)
        (List.forall_mem_singleton.mpr (isValue_decimalText _))⟩⟩

theorem Sent.nested {encode : Name → Name} {msg : Msg} {body : List Lexeme}
    (sent : Sent encode msg body) :
    Markup.nested [] (Markup.events body) = true := by
  cases sent with
  | lock16 | lock24 | lock32 =>
    unfold msgAnswerTag
    split <;> rfl
  | lock8 | unlock8 | ping | discover8 | discover16 | mngmnt8 => rfl

theorem Sent.proper {encode decode : Name → Name} (codec : Base64Codec encode decode) {msg : Msg}
    (names : ∀ name ∈ msg.names, CString name)
    (strings : ∀ name ∈ msg.strings, IsValue name) {body : List Lexeme}
    (sent : Sent encode msg body) : (msgDocument msg body).Proper where
  plain := by
    have header : (msgHeader msg).Plain := ⟨by decide,
      areProperties (show _ = [msgPropLevel, msgPropVerb, msgPropStep] from rfl) (by decide)
        (List.forall_mem_cons.mpr ⟨isValue_decimalText _,
          List.forall_mem_cons.mpr ⟨isValue_decimalText _,
          List.forall_mem_singleton.mpr (isValue_decimalText _)⟩⟩)⟩
    have closing : (Lexeme.stop msgTagMsg).Plain := by
      show IsName msgTagMsg
      decide
    have declaration : (Lexeme.instruction msgDeclaration).Plain := by
      show '?' ∉ msgDeclaration
      decide
    exact List.forall_mem_cons.mpr ⟨declaration, List.forall_mem_cons.mpr ⟨header,
      List.forall_mem_append.mpr ⟨sent.plain codec names strings,
      List.forall_mem_singleton.mpr closing⟩⟩⟩
  nested := sent.nested

theorem deserialize_tags (decode : Name → Name) (address : Address) (events : List MarkupEvent)
    (msg : Msg) :
    events.foldl (msgDeserializeEvent decode address) msg =
      (events.filter MarkupEvent.isTag).foldl (msgDeserializeEvent decode address) msg := by
  induction events generalizing msg with
  | nil => rfl
  | cons event events ih =>
    cases event with
    | text content =>
      have unchanged : msgDeserializeEvent decode address msg (.text content) = msg := rfl
      rw [List.foldl_cons, unchanged, List.filter_cons_of_neg Bool.false_ne_true, ih]
    | start element properties =>
      rw [List.foldl_cons, List.filter_cons_of_pos rfl, List.foldl_cons, ih]
    | stop element => rw [List.foldl_cons, List.filter_cons_of_pos rfl, List.foldl_cons, ih]

theorem Sent.deserialize {encode decode : Name → Name} (address : Address)
    (codec : Base64Codec encode decode) {msg : Msg} (level : msg.level = msgLevel)
    (typed : msg.Typed) {body : List Lexeme} (sent : Sent encode msg body) :
    deserializeLexemes decode address msgInit (msgDocument msg body).lexemes =
    carried address msg := by
  have closing : ∀ filled : Msg, filled.state = .parsing →
      deserializeLexemes decode address filled [.stop msgTagMsg] =
        { filled with state := .ready } := by
    intro filled parsing
    change msgDeserializeEvent decode address filled (.stop msgTagMsg) = _
    rw [msgDeserializeEvent, msgDeserializeEndElement, parsing]
    rfl
  have ready : { carried address msg with state := .ready } = carried address msg := by
    unfold carried
    split <;> (try split_ifs) <;> rfl
  change deserializeLexemes decode address msgInit ([.instruction msgDeclaration, msgHeader msg] ++
    (body ++ [.stop msgTagMsg])) = carried address msg
  rw [deserializeLexemes_append, sent.opened level, deserializeLexemes_append,
    sent.filled codec typed, closing _ rfl]
  exact ready

def markupParse (text : Name) : Feed :=
  match Markup.read text with
  | some events => { events := events.map MarkupEvent.ofEvent, wellFormed := true }
  | none => { events := [], wellFormed := false }

def base64Encode (text : Name) : Name := Base64.encode (text.map Char.toNat)

def base64Decode (text : Name) : Name := (Base64.decode text).map Char.ofNat

theorem markupParse_address (text : Name) : (markupParse text).address = .heap := by
  unfold markupParse
  split <;> rfl

theorem markupParse_reads : MarkupReads markupParse where
  wellFormed document proper := by
    rw [markupParse, Markup.read_document proper]
  events document proper := by
    rw [markupParse, Markup.read_document proper]
    refine List.filter_eq_self.mpr fun event member => ?_
    obtain ⟨tag, _, rfl⟩ := List.mem_map.mp member
    cases tag <;> rfl

theorem base64_codec : Base64Codec base64Encode base64Decode where
  inverse text bytes := by
    have small : ∀ byte ∈ text.map Char.toNat, byte < 256 := by
      intro byte member
      obtain ⟨symbol, here, rfl⟩ := List.mem_map.mp member
      exact (bytes symbol here).2
    rw [base64Decode, base64Encode, Base64.decode_encode _ small, List.map_map]
    exact (List.map_congr_left fun symbol _ => Char.ofNat_toNat symbol).trans (List.map_id text)
  alphabet text _ := Base64.encode_symbolic _

def pool : Name := ['p', 'o', 'o', 'l', '[', '4', ']']

def poolRequest : Msg :=
  { msgLock pool .ex 1 (-3) 1 with
    body := Lock8.body .heap ⟨some ['i', 'd'], some pool, .out (-7), 1, -3, 1, 10⟩ }

def poolText : Name :=
  msgText poolRequest [msgSession (some ['i', 'd']),
    msgResource (msgLock8Properties base64Encode poolRequest.lock8 pool)]

end Flom
