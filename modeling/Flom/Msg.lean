import Flom.Types

set_option autoImplicit false

namespace Flom

inductive MsgState where
  | initialized | parsing | ready | invalid
deriving DecidableEq, Repr

inductive Verb where
  | null | lock | unlock | ping | discover | mngmnt
  | other (value : Int)
deriving DecidableEq, Repr

def Verb.ofInt (value : Int) : Verb :=
  if value = 0 then .null
  else if value = 1 then .lock
  else if value = 2 then .unlock
  else if value = 3 then .ping
  else if value = 4 then .discover
  else if value = 5 then .mngmnt
  else .other value

def msgLevel : Int := 3
def msgStepIncr : Int := 8

structure Answer where
  rc : Rc
  element : Option Name
deriving DecidableEq, Repr

structure Lock8 where
  peerid : Option Name
  name : Option Name
  mode : LockMode
  wait : Int
  quantity : Int32
  create : Int
  lifespan : Int32
deriving DecidableEq, Repr

structure Unlock8 where
  name : Option Name
  rollback : Int
deriving DecidableEq, Repr

structure Discover16 where
  address : Option Name
  port : Nat
deriving DecidableEq, Repr

structure Mngmnt8 where
  peerid : Option Name
  shutdown : Option Int
deriving DecidableEq, Repr

/-- Four bytes, by what was stored there. -/
inductive Word where
  | int (value : Int)
  | mode (value : LockMode)
  | rc (value : Rc)
deriving DecidableEq, Repr

def Word.toInt : Word → Int
  | .int value => value
  | .mode value => value.index
  | .rc value => value.code

def Word.toMode : Word → LockMode
  | .mode value => value
  | word => LockMode.ofInt word.toInt

def Word.toRc : Word → Rc
  | .rc value => value
  | word => Rc.ofInt word.toInt

structure Address where
  low : Int
  high : Int
  allocated : low ≠ 0 ∨ high ≠ 0
deriving DecidableEq, Repr

def Address.heap : Address := ⟨1, 0, .inl (by decide)⟩

/-- Eight bytes, which are two words or a pointer, and the string last stored there with its
address. -/
structure Cell where
  low : Word
  high : Word
  held : Option (Address × Name)
deriving DecidableEq, Repr

def Cell.null : Cell := ⟨.int 0, .int 0, none⟩

def Cell.string (address : Address) (text : Name) : Cell :=
  ⟨.int address.low, .int address.high, some (address, text)⟩

def Cell.ofText (address : Address) : Option Name → Cell
  | some text => .string address text
  | none => .null

def Cell.text (cell : Cell) : Option Name :=
  match cell.held with
  | some (address, text) =>
    if cell.low.toInt = address.low ∧ cell.high.toInt = address.high then some text else none
  | none => none

def Cell.stray (cell : Cell) : Bool :=
  cell.text.isNone && !(cell.low.toInt = 0 && cell.high.toInt = 0)

@[simp] theorem Cell.string_text (address : Address) (text : Name) :
    (Cell.string address text).text = some text := by
  simp [Cell.text, Cell.string, Word.toInt]

@[simp] theorem Cell.string_stray (address : Address) (text : Name) :
    (Cell.string address text).stray = false := by
  simp [Cell.stray]

@[simp] theorem Cell.ofText_text (address : Address) (text : Option Name) :
    (Cell.ofText address text).text = text := by
  cases text with
  | none => rfl
  | some text => exact Cell.string_text _ _

@[simp] theorem Cell.ofText_stray (address : Address) (text : Option Name) :
    (Cell.ofText address text).stray = false := by
  cases text with
  | none => rfl
  | some text => exact Cell.string_stray _ _

/-- The union of the bodies, where a pointer has eight bytes and an int four. The variants share
the first three cells, and only lock_8 goes on behind them. -/
structure Body where
  first : Cell
  second : Cell
  third : Cell
  quantity : Int32
  create : Int
  lifespan : Int32
deriving DecidableEq, Repr

/-- The third cell is read as mode and wait of a request, or as the element of a first answer. -/
def Body.zero : Body := ⟨.null, .null, ⟨.mode .nl, .int 0, none⟩, 0, 0, 0⟩

structure Msg where
  state : MsgState
  level : Int
  verb : Verb
  step : Int
  body : Body
deriving DecidableEq, Repr

section

variable (msg : Msg)

def Msg.lock8 : Lock8 where
  peerid := msg.body.first.text
  name := msg.body.second.text
  mode := msg.body.third.low.toMode
  wait := msg.body.third.high.toInt
  quantity := msg.body.quantity
  create := msg.body.create
  lifespan := msg.body.lifespan

def Msg.peerid16 : Option Name := msg.body.first.text

def Msg.lock16 : Answer := ⟨msg.body.second.low.toRc, msg.body.third.text⟩

def Msg.lock24 : Answer := ⟨msg.body.first.low.toRc, msg.body.second.text⟩

def Msg.lock32 : Answer := ⟨msg.body.first.low.toRc, msg.body.second.text⟩

def Msg.unlock8 : Unlock8 := ⟨msg.body.first.text, msg.body.second.low.toInt⟩

def Msg.discover16 : Discover16 := ⟨msg.body.first.text, (msg.body.second.low.toInt % 65536).toNat⟩

def mngmntActionShutdown : Int := 1

def Msg.mngmnt8 : Mngmnt8 where
  peerid := msg.body.first.text
  shutdown :=
    if msg.body.second.low.toInt = mngmntActionShutdown then some msg.body.second.high.toInt
      else none

end

def Lock8.body (address : Address) (lock8 : Lock8) : Body where
  first := .ofText address lock8.peerid
  second := .ofText address lock8.name
  third := ⟨.mode lock8.mode, .int lock8.wait, none⟩
  quantity := lock8.quantity
  create := lock8.create
  lifespan := lock8.lifespan

def Unlock8.body (address : Address) (unlock8 : Unlock8) : Body :=
  { Body.zero with
    first := .ofText address unlock8.name, second := ⟨.int unlock8.rollback, .int 0, none⟩ }

section

variable (state : MsgState) (level : Int) (verb : Verb) (step : Int) (address : Address)

@[simp] theorem lock8_body (lock8 : Lock8) :
    (Msg.mk state level verb step (lock8.body address)).lock8 = lock8 := by
  simp [Msg.lock8, Lock8.body, Word.toMode, Word.toInt]

@[simp] theorem unlock8_body (unlock8 : Unlock8) :
    (Msg.mk state level verb step (unlock8.body address)).unlock8 = unlock8 := by
  simp [Msg.unlock8, Unlock8.body, Word.toInt]

end

def msgInit : Msg where
  state := .initialized
  level := 0
  verb := .null
  step := 0
  body := .zero

@[simp] theorem msgInit_lock8 : msgInit.lock8 = ⟨none, none, .nl, 0, 0, 0, 0⟩ := rfl

@[simp] theorem msgInit_unlock8 : msgInit.unlock8 = ⟨none, 0⟩ := rfl

def msgLock (name : Name) (mode : LockMode) (wait : Int) (quantity : Int32) (create : Int) :
    Msg where
  state := .ready
  level := msgLevel
  verb := .lock
  step := msgStepIncr
  body := Lock8.body .heap ⟨none, some name, mode, wait, quantity, create, 0⟩

def msgUnlock (name : Name) (rollback : Int) : Msg where
  state := .ready
  level := msgLevel
  verb := .unlock
  step := msgStepIncr
  body := Unlock8.body .heap ⟨some name, rollback⟩

def msgFreeable (verb : Verb) (step : Int) : Bool :=
  match verb with
  | .null => true
  | .lock => step = msgStepIncr || step = 2 * msgStepIncr || step = 3 * msgStepIncr ||
      step = 4 * msgStepIncr
  | .unlock => step = msgStepIncr || step = 2 * msgStepIncr
  | .ping => step = msgStepIncr || step = 2 * msgStepIncr
  | .discover => step = msgStepIncr || step = 2 * msgStepIncr
  | .mngmnt => step = msgStepIncr
  | .other _ => false

def Msg.owned (msg : Msg) : List Cell :=
  match msg.verb with
  | .lock =>
    if msg.step = msgStepIncr then [msg.body.first, msg.body.second]
    else if msg.step = 2 * msgStepIncr then [msg.body.first, msg.body.third]
    else if msg.step = 3 * msgStepIncr ∨ msg.step = 4 * msgStepIncr then [msg.body.second]
    else []
  | .unlock | .mngmnt => if msg.step = msgStepIncr then [msg.body.first] else []
  | .discover => if msg.step = 2 * msgStepIncr then [msg.body.first] else []
  | .null | .ping | .other _ => []

def Msg.releasable (msg : Msg) : Bool := msg.owned.all fun cell => !cell.stray

/-- The strings of the variant the header selects are released; the rest of the message stays. -/
def msgRelease (msg : Msg) : Msg :=
  match msg.verb with
  | .lock =>
    if msg.step = msgStepIncr then { msg with body.first := .null, body.second := .null }
    else if msg.step = 2 * msgStepIncr then { msg with body.first := .null, body.third := .null }
    else { msg with body.second := .null }
  | .unlock => if msg.step = msgStepIncr then { msg with body.first := .null } else msg
  | .discover => if msg.step = msgStepIncr then msg else { msg with body.first := .null }
  | .mngmnt => { msg with body.first := .null }
  | _ => msg

def msgFree (msg : Msg) : Rc × Msg :=
  let spent := { msg with state := .invalid }
  if msgFreeable msg.verb msg.step then
    if msg.releasable then (.ok, msgRelease spent) else (.crash, spent)
  else (.invalidPropertyValue, spent)

def msgCheckProtocol (msg : Msg) (client : Bool) : Bool :=
  match msg.verb with
  | .lock =>
    if msg.step = msgStepIncr then client
    else if msg.step = 2 * msgStepIncr || msg.step = 3 * msgStepIncr ||
        msg.step = 4 * msgStepIncr then
      !client
    else false
  | .unlock => if msg.step = msgStepIncr then client else false
  | .ping =>
    if msg.step = msgStepIncr then !client
    else if msg.step = 2 * msgStepIncr then client
    else false
  | .discover =>
    if msg.step = msgStepIncr then client
    else if msg.step = 2 * msgStepIncr then !client
    else false
  | .mngmnt => if msg.step = msgStepIncr then client else false
  | .null | .other _ => false

/-- The unique id of step 16 is left to `msgIdentify`. -/
def msgBuildAnswer (msg : Msg) (verb : Verb) (step : Int) (rc : Rc) (element : Option Name) :
    Rc × Msg :=
  let started := { msg with state := .parsing, level := msgLevel, verb := verb, step := step }
  if step = 2 * msgStepIncr then
    (.ok,
      { started with
      body.second.low := .rc rc, body.third := .ofText .heap element, state := .ready })
  else if step = 3 * msgStepIncr ∨ step = 4 * msgStepIncr then
    (.ok,
      { started with
      body.first.low := .rc rc, body.second := .ofText .heap element, state := .ready })
  else (.invalidOption, started)

/-- What flom_tls_get_unique_id returned goes into a first answer, `id` being the one of the
machine. -/
def msgIdentify (id : Name) (msg : Msg) : Msg :=
  if msg.verb = .lock ∧ msg.step = 2 * msgStepIncr then { msg with body.first := .string .heap id }
    else msg

def msgAnswer (msg : Msg) : Answer :=
  if msg.step = 2 * msgStepIncr then msg.lock16
  else if msg.step = 3 * msgStepIncr then msg.lock24
  else msg.lock32

def msgGetPeerid (msg : Msg) : Option Name :=
  match msg.verb with
  | .lock =>
    if msg.step = msgStepIncr then msg.lock8.peerid
    else if msg.step = 2 * msgStepIncr then msg.peerid16
    else none
  | .mngmnt => if msg.step = msgStepIncr then msg.mngmnt8.peerid else none
  | _ => none

/-- What flom_msg_get_peerid returns is followed. -/
def Msg.peeridStray (msg : Msg) : Bool :=
  match msg.verb with
  | .lock => (msg.step = msgStepIncr || msg.step = 2 * msgStepIncr) && msg.body.first.stray
  | .mngmnt => msg.step = msgStepIncr && msg.body.first.stray
  | _ => false

theorem msgBuildAnswer_answer (msg : Msg) (verb : Verb) (step : Int) (rc : Rc)
    (element : Option Name) (built : (msgBuildAnswer msg verb step rc element).1 = .ok) :
    msgAnswer (msgBuildAnswer msg verb step rc element).2 = ⟨rc, element⟩ := by
  unfold msgBuildAnswer msgAnswer at *
  split_ifs at built ⊢ <;> simp_all [Msg.lock16, Msg.lock24, Msg.lock32, Word.toRc]

theorem msgBuildAnswer_step (msg : Msg) (verb : Verb) (step : Int) (rc : Rc)
    (element : Option Name) :
    (msgBuildAnswer msg verb step rc element).2.step = step := by
  unfold msgBuildAnswer
  split_ifs <;> rfl

theorem msgBuildAnswer_fst_eq (msg msg' : Msg) (verb verb' : Verb) (step : Int) (rc rc' : Rc)
    (element element' : Option Name) :
    (msgBuildAnswer msg verb step rc element).1 =
    (msgBuildAnswer msg' verb' step rc' element').1 := by
  simp only [msgBuildAnswer]
  split_ifs <;> rfl

end Flom
