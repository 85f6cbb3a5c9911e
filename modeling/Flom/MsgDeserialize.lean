import Flom.Msg
import Flom.RsrcName

set_option autoImplicit false

namespace Flom

inductive MarkupEvent where
  | start (element : Name) (properties : List (Name × Name))
  | text (content : Name)
  | stop (element : Name)
deriving DecidableEq, Repr

/-- What one buffer makes the parser report, and whether it could parse all of it. `address` is
where the strings copied from it lie: no variant reads two of them as numbers, so one stands for
all. -/
structure Feed where
  events : List MarkupEvent
  wellFormed : Bool
  address : Address := .heap
deriving DecidableEq, Repr

inductive MsgTag where
  | dummy | msg | resource | answer | network | session | shutdown
deriving DecidableEq, Repr

def msgTagMsg : Name := ['m', 's', 'g']
def msgTagResource : Name := ['r', 'e', 's', 'o', 'u', 'r', 'c', 'e']
def msgTagAnswer : Name := ['a', 'n', 's', 'w', 'e', 'r']
def msgTagNetwork : Name := ['n', 'e', 't', 'w', 'o', 'r', 'k']
def msgTagSession : Name := ['s', 'e', 's', 's', 'i', 'o', 'n']
def msgTagShutdown : Name := ['s', 'h', 'u', 't', 'd', 'o', 'w', 'n']

def msgPropAddress : Name := ['a', 'd', 'd', 'r', 'e', 's', 's']
def msgPropCreate : Name := ['c', 'r', 'e', 'a', 't', 'e']
def msgPropElement : Name := ['e', 'l', 'e', 'm', 'e', 'n', 't']
def msgPropLevel : Name := ['l', 'e', 'v', 'e', 'l']
def msgPropImmediate : Name := ['i', 'm', 'm', 'e', 'd', 'i', 'a', 't', 'e']
def msgPropLifespan : Name := ['l', 'i', 'f', 'e', 's', 'p', 'a', 'n']
def msgPropMode : Name := ['m', 'o', 'd', 'e']
def msgPropName : Name := ['n', 'a', 'm', 'e']
def msgPropPeerid : Name := ['p', 'e', 'e', 'r', 'i', 'd']
def msgPropPort : Name := ['p', 'o', 'r', 't']
def msgPropQuantity : Name := ['q', 'u', 'a', 'n', 't', 'i', 't', 'y']
def msgPropRc : Name := ['r', 'c']
def msgPropRollback : Name := ['r', 'o', 'l', 'l', 'b', 'a', 'c', 'k']
def msgPropStep : Name := ['s', 't', 'e', 'p']
def msgPropVerb : Name := ['v', 'e', 'r', 'b']
def msgPropWait : Name := ['w', 'a', 'i', 't']

def msgTagType (element : Name) : MsgTag :=
  if element = msgTagMsg then .msg
  else if element = msgTagResource then .resource
  else if element = msgTagAnswer then .answer
  else if element = msgTagNetwork then .network
  else if element = msgTagSession then .session
  else if element = msgTagShutdown then .shutdown
  else .dummy

def strtoint (text : Name) : Int32 := Int32.ofInt (strtol text)

abbrev Deserialized := Except Msg Msg

def msgHeaderProperty (msg : Msg) (name value : Name) : Deserialized :=
  let number := (strtoint value).toInt
  if name = msgPropLevel then
    let leveled := { msg with level := number }
    if number = msgLevel then .ok leveled else .error leveled
  else if name = msgPropVerb then .ok { msg with verb := Verb.ofInt number }
  else if name = msgPropStep then .ok { msg with step := number }
  else .ok msg

def msgOnly (msg : Msg) (verb : Verb) (changed : Msg) : Deserialized :=
  if msg.verb = verb then .ok changed else .error msg

-- `decode` is g_base64_decode, cut at the first NUL as the C string is.
def msgResourceProperty (decode : Name → Name) (address : Address) (msg : Msg) (name value : Name) :
    Deserialized :=
  let number := strtoint value
  if (msg.verb = .lock ∨ msg.verb = .unlock) ∧ msg.step = msgStepIncr then
    if name = msgPropName then
      if msg.verb = .lock then .ok { msg with body.second := .string address (decode value) }
      else .ok { msg with body.first := .string address (decode value) }
    else if name = msgPropMode then
      msgOnly msg .lock { msg with body.third.low := .mode (LockMode.ofInt number.toInt) }
    else if name = msgPropRollback then
      msgOnly msg .unlock { msg with body.second.low := .int number.toInt }
    else if name = msgPropWait then
      msgOnly msg .lock { msg with body.third.high := .int number.toInt }
    else if name = msgPropQuantity then
      msgOnly msg .lock { msg with body.quantity := number }
    else if name = msgPropCreate then
      msgOnly msg .lock { msg with body.create := number.toInt }
    else if name = msgPropLifespan then
      msgOnly msg .lock { msg with body.lifespan := number }
    else .ok msg
  else .ok msg

def msgAnswerProperty (address : Address) (msg : Msg) (name value : Name) : Deserialized :=
  let rc := Rc.ofInt (strtoint value).toInt
  if msg.verb = .lock then
    if msg.step = 2 * msgStepIncr then
      if name = msgPropRc then .ok { msg with body.second.low := .rc rc }
      else if name = msgPropElement then .ok { msg with body.third := .string address value }
      else .ok msg
    else if msg.step = 3 * msgStepIncr ∨ msg.step = 4 * msgStepIncr then
      if name = msgPropRc then .ok { msg with body.first.low := .rc rc }
      else if name = msgPropElement then .ok { msg with body.second := .string address value }
      else .ok msg
    else .ok msg
  else .ok msg

def Word.putPort (word : Word) (port : Int) : Word :=
  .int (word.toInt / 65536 * 65536 + port % 65536)

def msgNetworkProperty (address : Address) (msg : Msg) (name value : Name) : Deserialized :=
  if msg.verb = .discover ∧ msg.step = 2 * msgStepIncr then
    if name = msgPropPort then
      .ok { msg with body.second.low := msg.body.second.low.putPort (strtol value) }
    else if name = msgPropAddress then .ok { msg with body.first := .string address value }
    else .error msg
  else .ok msg

def msgSessionProperty (address : Address) (msg : Msg) (name value : Name) : Deserialized :=
  if name = msgPropPeerid then
    if (msg.verb = .lock ∧ (msg.step = msgStepIncr ∨ msg.step = 2 * msgStepIncr)) ∨
        (msg.verb = .mngmnt ∧ msg.step = msgStepIncr) then
      .ok { msg with body.first := .string address value }
    else .ok msg
  else .ok msg

def msgShutdownProperty (msg : Msg) (name value : Name) : Deserialized :=
  if msg.verb = .mngmnt ∧ msg.step = msgStepIncr then
    if name = msgPropImmediate then
      .ok { msg with
        body.second.low := .int mngmntActionShutdown, body.second.high :=
          .int (strtoint value).toInt }
    else .error msg
  else .ok msg

def msgProperty (decode : Name → Name) (address : Address) (tag : MsgTag) (msg : Msg)
    (property : Name × Name) : Deserialized :=
  match tag with
  | .msg => msgHeaderProperty msg property.1 property.2
  | .resource => msgResourceProperty decode address msg property.1 property.2
  | .answer => msgAnswerProperty address msg property.1 property.2
  | .network => msgNetworkProperty address msg property.1 property.2
  | .session => msgSessionProperty address msg property.1 property.2
  | .shutdown => msgShutdownProperty msg property.1 property.2
  | .dummy => .error msg

def msgDeserializeStartElement (decode : Name → Name) (address : Address) (msg : Msg)
    (element : Name) (properties : List (Name × Name)) : Msg :=
  if msg.state = .invalid then msg
  else
    let parsing := if msg.state = .initialized then { msg with state := .parsing } else msg
    match properties.foldlM (msgProperty decode address (msgTagType element)) parsing with
    | .ok parsed => parsed
    | .error thrown => { thrown with state := .invalid }

def msgDeserializeEndElement (msg : Msg) (element : Name) : Msg :=
  match msg.state with
  | .invalid | .ready => msg
  | .initialized => { msg with state := .invalid }
  | .parsing => if element = msgTagMsg then { msg with state := .ready } else msg

def msgDeserializeEvent (decode : Name → Name) (address : Address) (msg : Msg) : MarkupEvent → Msg
  | .start element properties => msgDeserializeStartElement decode address msg element properties
  | .text _ => msg
  | .stop element => msgDeserializeEndElement msg element

def msgDeserialize (decode : Name → Name) (feed : Feed) (msg : Msg) : Rc × Msg :=
  (if feed.wellFormed then .ok else .markupParseError,
    feed.events.foldl (msgDeserializeEvent decode feed.address) msg)

def encodedX : Name := ['e', 'A', '=', '=']

def decodeX (text : Name) : Name := if text = encodedX then ['x'] else []

def lockFeed : Feed where
  events :=
    [.start msgTagMsg [(msgPropLevel, ['3']), (msgPropVerb, ['1']), (msgPropStep, ['8'])],
      .start msgTagResource
        [(msgPropName, encodedX), (msgPropMode, ['5']), (msgPropWait, ['1']),
          (msgPropQuantity, ['1']),
          (msgPropCreate, ['1']), (msgPropLifespan, ['0'])],
      .stop msgTagResource, .stop msgTagMsg]
  wellFormed := true

end Flom
