import Flom.Lib.Markup
import Flom.LockModes
import Flom.MsgDeserialize

set_option autoImplicit false

namespace Flom

open Markup (Lexeme)

def Verb.index : Verb → Int
  | .null => 0
  | .lock => 1
  | .unlock => 2
  | .ping => 3
  | .discover => 4
  | .mngmnt => 5
  | .other value => value

def decimalText (value : Int) : Name :=
  if value < 0 then '-' :: Nat.toDigits 10 value.natAbs else Nat.toDigits 10 value.natAbs

def byteLength (text : Name) : Nat := (text.map Char.utf8Size).sum

structure Buffer where
  text : Name
  free : Nat
deriving DecidableEq, Repr

abbrev Serialized := Except Rc Buffer

/-- snprintf with the check behind it: the terminator must have room too. -/
def Buffer.print (buffer : Buffer) (lexeme : Lexeme) : Serialized :=
  if buffer.free ≤ byteLength lexeme.text then .error .containerFull
  else .ok ⟨buffer.text ++ lexeme.text, buffer.free - byteLength lexeme.text⟩

def msgDeclaration : Name :=
  ['x', 'm', 'l', ' ', 'v', 'e', 'r', 's', 'i', 'o', 'n', '=', '"', '1', '.', '0', '"', ' ', 'e',
    'n', 'c', 'o', 'd',
    'i', 'n', 'g', '=', '"', 'U', 'T', 'F', '-', '8', '"', ' ']

def msgSession (peerid : Option Name) : Lexeme :=
  .empty msgTagSession [(msgPropPeerid, peerid.getD [])] 0

def msgResource (properties : List (Name × Name)) : Lexeme := .empty msgTagResource properties 0

-- `encode` is g_base64_encode.
def msgSerializeLock8 (encode : Name → Name) (msg : Msg) (buffer : Buffer) : Serialized :=
  match msg.lock8.name with
  | none => .error .crash
  | some resource => do
    let name := (msgPropName, encode resource)
    let mode := (msgPropMode, decimalText msg.lock8.mode.index)
    let wait := (msgPropWait, decimalText msg.lock8.wait)
    let quantity := (msgPropQuantity, decimalText msg.lock8.quantity.toInt)
    let create := (msgPropCreate, decimalText msg.lock8.create)
    let lifespan := (msgPropLifespan, decimalText msg.lock8.lifespan.toInt)
    let opened ← buffer.print (msgSession msg.lock8.peerid)
    match rsrcGetType resource with
    | .simple => opened.print (msgResource [name, mode, wait, create, lifespan])
    | .numeric => opened.print (msgResource [name, wait, quantity, create, lifespan])
    | .set => opened.print (msgResource [name, wait, create, lifespan])
    | .hier => opened.print (msgResource [name, mode, wait, create, lifespan])
    | .sequence | .timestamp => opened.print (msgResource [name, wait, create, lifespan])
    | .null => .error .invalidResourceName

def msgAnswerTag (answer : Answer) : Lexeme :=
  match answer.element with
  | none => .empty msgTagAnswer [(msgPropRc, decimalText answer.rc.code)] 0
  | some element =>
    .empty msgTagAnswer [(msgPropRc, decimalText answer.rc.code), (msgPropElement, element)] 0

def msgSerializeLock16 (msg : Msg) (buffer : Buffer) : Serialized := do
  let opened ← buffer.print (msgSession msg.peerid16)
  opened.print (msgAnswerTag msg.lock16)

def msgSerializeLock24 (msg : Msg) (buffer : Buffer) : Serialized :=
  buffer.print (msgAnswerTag msg.lock24)

def msgSerializeLock32 (msg : Msg) (buffer : Buffer) : Serialized :=
  buffer.print (msgAnswerTag msg.lock32)

def msgSerializeUnlock8 (encode : Name → Name) (msg : Msg) (buffer : Buffer) : Serialized :=
  match msg.unlock8.name with
  | none => .error .crash
  | some resource =>
    buffer.print (.empty msgTagResource
      [(msgPropName, encode resource), (msgPropRollback, decimalText msg.unlock8.rollback)] 1)

def msgSerializePing8 (buffer : Buffer) : Serialized := .ok buffer

def msgSerializePing16 (buffer : Buffer) : Serialized := .ok buffer

def msgSerializeDiscover8 (buffer : Buffer) : Serialized := .ok buffer

def msgSerializeDiscover16 (msg : Msg) (buffer : Buffer) : Serialized :=
  buffer.print (.empty msgTagNetwork
    [(msgPropAddress, msg.discover16.address.getD []),
      (msgPropPort, decimalText msg.discover16.port)] 0)

/-- Without an action nothing more is printed, but the length of the session tag is counted again:
the bytes passed over are what the caller's buffer held, taken as zero here. -/
def Buffer.pass (buffer : Buffer) (count : Nat) : Serialized :=
  if buffer.free ≤ count then .error .containerFull
  else .ok ⟨buffer.text ++ List.replicate count (Char.ofNat 0), buffer.free - count⟩

def msgSerializeMngmnt8 (msg : Msg) (buffer : Buffer) : Serialized := do
  let opened ← buffer.print (msgSession msg.mngmnt8.peerid)
  match msg.mngmnt8.shutdown with
  | some immediate =>
    opened.print (.empty msgTagShutdown [(msgPropImmediate, decimalText immediate)] 0)
  | none => opened.pass (byteLength (msgSession msg.mngmnt8.peerid).text)

def msgSerializeBody (encode : Name → Name) (msg : Msg) (buffer : Buffer) : Serialized :=
  match msg.verb with
  | .lock =>
    if msg.step = msgStepIncr then msgSerializeLock8 encode msg buffer
    else if msg.step = 2 * msgStepIncr then msgSerializeLock16 msg buffer
    else if msg.step = 3 * msgStepIncr then msgSerializeLock24 msg buffer
    else if msg.step = 4 * msgStepIncr then msgSerializeLock32 msg buffer
    else .error .internalError
  | .unlock =>
    if msg.step = msgStepIncr then msgSerializeUnlock8 encode msg buffer else .error .internalError
  | .ping =>
    if msg.step = msgStepIncr then msgSerializePing8 buffer
    else if msg.step = 2 * msgStepIncr then msgSerializePing16 buffer
    else .error .internalError
  | .discover =>
    if msg.step = msgStepIncr then msgSerializeDiscover8 buffer
    else if msg.step = 2 * msgStepIncr then msgSerializeDiscover16 msg buffer
    else .error .internalError
  | .mngmnt =>
    if msg.step = msgStepIncr then msgSerializeMngmnt8 msg buffer else .error .internalError
  | .null | .other _ => .error .internalError

def msgHeader (msg : Msg) : Lexeme :=
  .start msgTagMsg [(msgPropLevel, decimalText msg.level),
    (msgPropVerb, decimalText msg.verb.index),
    (msgPropStep, decimalText msg.step)]

def msgSerialize (encode : Name → Name) (msg : Msg) (len : Nat) : Except Rc Name := do
  let declared ← Buffer.print ⟨[], len⟩ (.instruction msgDeclaration)
  let opened ← declared.print (msgHeader msg)
  let filled ← msgSerializeBody encode msg opened
  let closed ← filled.print (.stop msgTagMsg)
  return closed.text

def Buffer.printAll (buffer : Buffer) (lexemes : List Lexeme) : Serialized :=
  lexemes.foldlM Buffer.print buffer

def Buffer.wrote (buffer : Buffer) (lexemes : List Lexeme) : Buffer :=
  ⟨buffer.text ++ Markup.text lexemes, buffer.free - byteLength (Markup.text lexemes)⟩

theorem byteLength_append (front rest : Name) : byteLength
    (front ++ rest) = byteLength front + byteLength rest := by
  rw [byteLength, List.map_append, List.sum_append]
  rfl

theorem printAll_eq (lexemes : List Lexeme) (buffer : Buffer) (room : 0 < buffer.free) :
    buffer.printAll lexemes =
      if byteLength (Markup.text lexemes) < buffer.free then .ok
        (buffer.wrote lexemes) else .error .containerFull := by
  induction lexemes generalizing buffer with
  | nil =>
    have empty : byteLength (Markup.text []) = 0 := rfl
    rw [if_pos (by omega), Buffer.wrote, empty, Markup.text, List.flatMap_nil, List.append_nil]
    rfl
  | cons lexeme lexemes ih =>
    have cumulated : byteLength (Markup.text (lexeme :: lexemes)) =
        byteLength lexeme.text + byteLength (Markup.text lexemes) := by
      rw [Markup.text_cons, byteLength_append]
    rw [Buffer.printAll, List.foldlM_cons, Buffer.print]
    by_cases short : buffer.free ≤ byteLength lexeme.text
    · rw [if_pos short, if_neg (by omega)]
      rfl
    · rw [if_neg short]
      have others := ih ⟨buffer.text ++ lexeme.text, buffer.free - byteLength lexeme.text⟩ (by
        dsimp only
        omega)
      refine others.trans ?_
      by_cases fits : byteLength (Markup.text (lexeme :: lexemes)) < buffer.free
      · rw [if_pos fits, if_pos (by dsimp only; omega), Buffer.wrote, Buffer.wrote,
          Markup.text_cons,
          byteLength_append, List.append_assoc, Nat.sub_sub]
      · rw [if_neg fits, if_neg (by dsimp only; omega)]

def msgLock8Properties (encode : Name → Name) (lock8 : Lock8) (resource : Name) :
    List (Name × Name) :=
  let name := (msgPropName, encode resource)
  let mode := (msgPropMode, decimalText lock8.mode.index)
  let wait := (msgPropWait, decimalText lock8.wait)
  let quantity := (msgPropQuantity, decimalText lock8.quantity.toInt)
  let create := (msgPropCreate, decimalText lock8.create)
  let lifespan := (msgPropLifespan, decimalText lock8.lifespan.toInt)
  match rsrcGetType resource with
  | .simple | .hier => [name, mode, wait, create, lifespan]
  | .numeric => [name, wait, quantity, create, lifespan]
  | _ => [name, wait, create, lifespan]

inductive Sent (encode : Name → Name) (msg : Msg) : List Lexeme → Prop
  | lock8 {resource : Name} (verb : msg.verb = .lock) (step : msg.step = msgStepIncr)
    (named : msg.lock8.name = some resource) (typed : rsrcGetType resource ≠ .null) :
    Sent encode msg
      [msgSession msg.lock8.peerid, msgResource (msgLock8Properties encode msg.lock8 resource)]
  | lock16 (verb : msg.verb = .lock) (step : msg.step = 2 * msgStepIncr) :
    Sent encode msg [msgSession msg.peerid16, msgAnswerTag msg.lock16]
  | lock24 (verb : msg.verb = .lock) (step : msg.step = 3 * msgStepIncr) :
    Sent encode msg [msgAnswerTag msg.lock24]
  | lock32 (verb : msg.verb = .lock) (step : msg.step = 4 * msgStepIncr) :
    Sent encode msg [msgAnswerTag msg.lock32]
  | unlock8 {resource : Name} (verb : msg.verb = .unlock) (step : msg.step = msgStepIncr)
    (named : msg.unlock8.name = some resource) :
    Sent encode msg [.empty msgTagResource
      [(msgPropName, encode resource), (msgPropRollback, decimalText msg.unlock8.rollback)] 1]
  | ping (verb : msg.verb = .ping) (step : msg.step = msgStepIncr ∨ msg.step = 2 * msgStepIncr) :
    Sent encode msg []
  | discover8 (verb : msg.verb = .discover) (step : msg.step = msgStepIncr) : Sent encode msg []
  | discover16 (verb : msg.verb = .discover) (step : msg.step = 2 * msgStepIncr) :
    Sent encode msg [.empty msgTagNetwork
      [(msgPropAddress, msg.discover16.address.getD []),
        (msgPropPort, decimalText msg.discover16.port)] 0]
  | mngmnt8 {immediate : Int} (verb : msg.verb = .mngmnt) (step : msg.step = msgStepIncr)
    (action : msg.mngmnt8.shutdown = some immediate) :
    Sent encode msg [msgSession msg.mngmnt8.peerid,
      .empty msgTagShutdown [(msgPropImmediate, decimalText immediate)] 0]

theorem ok_of_bind {Value Result : Type} {first : Except Rc Value} {next : Value → Except Rc Result}
    {result : Result} (bound : first >>= next = .ok result) : ∃ value, first = .ok value ∧
    next value = .ok result := by
  cases first with
  | error rc => cases bound
  | ok value => exact ⟨value, rfl, bound⟩

theorem printAll_nil (buffer : Buffer) : buffer.printAll [] = pure buffer := rfl

theorem printAll_cons (buffer : Buffer) (lexeme : Lexeme) (lexemes : List Lexeme) :
    buffer.printAll (lexeme :: lexemes) = buffer.print lexeme >>= fun after =>
    after.printAll lexemes :=
  List.foldlM_cons

theorem printAll_append (buffer : Buffer) (front rest : List Lexeme) :
    buffer.printAll (front ++ rest) = buffer.printAll front >>= fun after => after.printAll rest :=
  List.foldlM_append

theorem printAll_one (buffer : Buffer) (lexeme : Lexeme) :
    buffer.printAll [lexeme] = buffer.print lexeme := by
  rw [printAll_cons]
  simp only [printAll_nil, bind_pure]

theorem printAll_two (buffer : Buffer) (first second : Lexeme) :
    buffer.printAll [first, second] = buffer.print first >>= fun opened => opened.print second := by
  rw [printAll_cons]
  simp only [printAll_one]

theorem msgSerializeLock8_eq (encode : Name → Name) (msg : Msg) (buffer : Buffer) {resource : Name}
    (named : msg.lock8.name = some resource) (typed : rsrcGetType resource ≠ .null) :
    msgSerializeLock8 encode msg buffer = buffer.printAll
      [msgSession msg.lock8.peerid, msgResource
          (msgLock8Properties encode msg.lock8 resource)] := by
  rw [printAll_two, msgSerializeLock8, named, msgLock8Properties]
  cases type : rsrcGetType resource with
  | null => exact absurd type typed
  | simple | numeric | set | hier | sequence | timestamp =>
    simp only [type]

theorem Sent.serialize {encode : Name → Name} {msg : Msg} {body : List Lexeme}
    (sent : Sent encode msg body) (buffer : Buffer) :
    msgSerializeBody encode msg buffer = buffer.printAll body := by
  cases sent with
  | lock8 verb step named typed =>
    simp only [msgSerializeBody, verb, step, if_pos,
      msgSerializeLock8_eq encode msg buffer named typed]
  | lock16 verb step =>
    simp [msgSerializeBody, verb, step, msgStepIncr, msgSerializeLock16, printAll_two]
  | lock24 verb step =>
    simp [msgSerializeBody, verb, step, msgStepIncr, msgSerializeLock24, printAll_one]
  | lock32 verb step =>
    simp [msgSerializeBody, verb, step, msgStepIncr, msgSerializeLock32, printAll_one]
  | unlock8 verb step named =>
    simp [msgSerializeBody, verb, step, msgSerializeUnlock8, named, printAll_one]
  | ping verb step =>
    rcases step with step | step <;>
      simp [msgSerializeBody, verb, step, msgStepIncr, msgSerializePing8, msgSerializePing16] <;>
        rfl
  | discover8 verb step =>
    simp only [msgSerializeBody, verb, step, if_pos]
    rfl
  | discover16 verb step =>
    simp [msgSerializeBody, verb, step, msgStepIncr, msgSerializeDiscover16, printAll_one]
  | mngmnt8 verb step action =>
    simp [msgSerializeBody, verb, step, msgSerializeMngmnt8, action, printAll_two]

theorem sent_of_serialize {encode : Name → Name} {msg : Msg} {buffer after : Buffer}
    (active : msg.verb = .mngmnt → msg.mngmnt8.shutdown ≠ none)
    (serialized : msgSerializeBody encode msg buffer = .ok after) : ∃ body,
    Sent encode msg body := by
  unfold msgSerializeBody at serialized
  split at serialized
  · next verb =>
    split_ifs at serialized with first second third fourth
    · cases named : msg.lock8.name with
      | none => simp [msgSerializeLock8, named] at serialized
      | some resource =>
        refine ⟨_, .lock8 verb first named fun typed => ?_⟩
        simp only [msgSerializeLock8, named, typed] at serialized
        obtain ⟨opened, _, refused⟩ := ok_of_bind serialized
        cases refused
    · exact ⟨_, .lock16 verb second⟩
    · exact ⟨_, .lock24 verb third⟩
    · exact ⟨_, .lock32 verb fourth⟩
  · next verb =>
    split_ifs at serialized with first
    cases named : msg.unlock8.name with
    | none => simp [msgSerializeUnlock8, named] at serialized
    | some resource => exact ⟨_, .unlock8 verb first named⟩
  · next verb =>
    split_ifs at serialized with first second
    · exact ⟨_, .ping verb (.inl first)⟩
    · exact ⟨_, .ping verb (.inr second)⟩
  · next verb =>
    split_ifs at serialized with first second
    · exact ⟨_, .discover8 verb first⟩
    · exact ⟨_, .discover16 verb second⟩
  · next verb =>
    split_ifs at serialized with first
    cases action : msg.mngmnt8.shutdown with
    | none => exact absurd action (active verb)
    | some immediate => exact ⟨_, .mngmnt8 verb first action⟩
  · cases serialized
  · cases serialized

def msgDocument (msg : Msg) (body : List Lexeme) : Markup.Document where
  declaration := msgDeclaration
  root := msgTagMsg
  properties := [(msgPropLevel, decimalText msg.level), (msgPropVerb, decimalText msg.verb.index),
    (msgPropStep, decimalText msg.step)]
  body := body

def msgText (msg : Msg) (body : List Lexeme) : Name := Markup.text (msgDocument msg body).lexemes

theorem msgSerialize_eq {encode : Name → Name} {msg : Msg} {body : List Lexeme}
    (sent : Sent encode msg body) (len : Nat) :
    msgSerialize encode msg len =
      if byteLength (msgText msg body) < len then .ok
        (msgText msg body) else .error .containerFull := by
  have lexemes : (msgDocument msg body).lexemes =
      .instruction msgDeclaration :: msgHeader msg :: (body ++ [.stop msgTagMsg]) := rfl
  have all : msgSerialize encode msg len =
      Buffer.text <$> Buffer.printAll ⟨[], len⟩ (msgDocument msg body).lexemes := by
    simp only [lexemes, msgSerialize, printAll_cons, printAll_append, printAll_nil, sent.serialize,
      map_bind, map_pure,
      bind_pure_comp]
  rw [all]
  by_cases room : 0 < len
  · rw [printAll_eq _ _ room, msgText]
    split_ifs <;> rfl
  · rw [if_neg (by omega), lexemes, printAll_cons, Buffer.print, if_pos (by dsimp only; omega)]
    rfl

theorem msgSerialize_ok {encode : Name → Name} {msg : Msg} {len : Nat} {text : Name}
    (active : msg.verb = .mngmnt → msg.mngmnt8.shutdown ≠ none)
    (accepted : msgSerialize encode msg len = .ok text) :
    ∃ body, Sent encode msg body ∧ text = msgText msg body ∧ byteLength text < len := by
  obtain ⟨declared, _, rest⟩ := ok_of_bind accepted
  obtain ⟨opened, _, rest⟩ := ok_of_bind rest
  obtain ⟨filled, serialized, _⟩ := ok_of_bind rest
  obtain ⟨body, sent⟩ := sent_of_serialize active serialized
  rw [msgSerialize_eq sent] at accepted
  split_ifs at accepted with fits
  cases accepted
  exact ⟨body, sent, rfl, fits⟩

end Flom
