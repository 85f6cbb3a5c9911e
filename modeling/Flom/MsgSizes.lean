import Mathlib.Data.List.Chain
import Flom.Client
import Flom.MsgRoundTrip
import Flom.RecvMsg
import Flom.ResourceGrant

set_option autoImplicit false

namespace Flom

open Markup (Lexeme)

def networkBufferSize : Nat := 1024
def msgBufferSize : Nat := 512

def clientLockSerialize (encode : Name → Name) (config : ClientConfig) : Except Rc Name :=
  match config.peerid with
  | none => .error .nullObject
  | some _ => msgSerialize encode (clientRequest config) networkBufferSize

def clientUnlockRequest (config : ClientConfig) (rollback : Int) : Msg where
  state := .initialized
  level := msgLevel
  verb := .unlock
  step := msgStepIncr
  body := Unlock8.body .heap ⟨some config.resourceName, rollback⟩

def clientUnlockSerialize (encode : Name → Name) (config : ClientConfig) (rollback : Int) :
    Except Rc Name :=
  msgSerialize encode (clientUnlockRequest config rollback) networkBufferSize

def lockerAnswerSerialize (encode : Name → Name) (answer : Msg) : Except Rc Name :=
  msgSerialize encode answer msgBufferSize

def connRecv (tls : Bool) (recv : Nat → Nat → Int) (stream : List UInt8) (buf : Nat → UInt8)
    (len : Nat) :
    Option RecvMsg :=
  if tls then tlsRecvMsg recv stream buf len else tcpRecvMsg recv stream buf len

def Fragments (recv : Nat → Nat → Int) : Prop :=
  ∀ retrieved toBeRead, 1 ≤ toBeRead → 1 ≤ recv retrieved toBeRead ∧
    recv retrieved toBeRead ≤ toBeRead

def ReceivedWhole (text : Name) : Prop :=
  ∀ (tls : Bool) (recv : Nat → Nat → Int) (memory : Nat → UInt8) (others : List UInt8),
    Fragments recv →
    ∃ result, connRecv tls recv (bytesOf text ++ others) memory msgBufferSize = some result ∧
    result.rc = .ok ∧
      result.received = some text.length

def Ascii (text : Name) : Prop := ∀ c ∈ text, c.toNat < 128

instance (text : Name) : Decidable (Ascii text) :=
  decidable_of_iff (text.all (·.toNat < 128) = true) (by simp [Ascii])

theorem byteLength_cons (c : Char) (text : Name) :
    byteLength (c :: text) = c.utf8Size + byteLength text := rfl

theorem byteLength_nil : byteLength [] = 0 := rfl

theorem byteLength_ascii {text : Name} (ascii : Ascii text) : byteLength text = text.length := by
  induction text with
  | nil => rfl
  | cons c text ih =>
    obtain ⟨small, others⟩ := List.forall_mem_cons.mp ascii
    have one : c.utf8Size = 1 := by
      have low : c.val ≤ 0x7f := UInt32.le_iff_toNat_le.mpr (by
        change c.toNat ≤ 127
        omega)
      exact if_pos low
    rw [byteLength_cons, one, ih others, List.length_cons]
    omega

def propertiesLength (properties : List (Name × Name)) : Nat :=
  (properties.map fun property => 4 + byteLength property.1 + byteLength property.2).sum

theorem byteLength_properties (properties : List (Name × Name)) :
    byteLength (properties.flatMap Markup.propertyText) = propertiesLength properties := by
  induction properties with
  | nil => rfl
  | cons property properties ih =>
    have quotes : ' '.utf8Size + ('='.utf8Size + ('"'.utf8Size + '"'.utf8Size)) = 4 := by decide
    rw [List.flatMap_cons, byteLength_append, ih, propertiesLength, propertiesLength, List.map_cons,
      List.sum_cons]
    simp only [Markup.propertyText, byteLength_cons, byteLength_append, byteLength_nil]
    omega

theorem byteLength_empty (tag : Name) (properties : List (Name × Name)) (blanks : Nat) :
    byteLength (Lexeme.empty tag properties blanks).text =
      3 + byteLength tag + propertiesLength properties + blanks := by
  have brackets : '<'.utf8Size + ('/'.utf8Size + '>'.utf8Size) = 3 := by decide
  have gap : byteLength (List.replicate blanks ' ') = blanks := by
    rw [byteLength_ascii
      fun c member => by rw [List.eq_of_mem_replicate member]; decide, List.length_replicate]
  simp only [Lexeme.text, byteLength_cons, byteLength_append, byteLength_properties, byteLength_nil,
    gap]
  omega

theorem byteLength_msgText (msg : Msg) (body : List Lexeme) :
    byteLength (msgText msg body) = 45 + byteLength (msgHeader msg).text + byteLength
      (Markup.text body) := by
  have declaration : byteLength (Lexeme.instruction msgDeclaration).text = 39 := by decide
  have closing : byteLength (Lexeme.stop msgTagMsg).text = 6 := by decide
  have lexemes : (msgDocument msg body).lexemes =
      .instruction msgDeclaration :: msgHeader msg :: (body ++ [.stop msgTagMsg]) := rfl
  rw [msgText, lexemes, Markup.text_cons, Markup.text_cons, Markup.text, List.flatMap_append,
    List.flatMap_cons,
    List.flatMap_nil, List.append_nil]
  simp only [byteLength_append, declaration, closing, Markup.text]
  omega

def digitCount (value : Int) : Nat := (decimalText value).length

theorem ascii_digits (value : Nat) : Ascii (Nat.toDigits 10 value) := by
  intro digit member
  have bounds := Char.isDigit_iff_toNat.mp (toDigits_digits value digit member)
  have high : '9'.toNat = 57 := rfl
  omega

theorem ascii_decimalText (value : Int) : Ascii (decimalText value) := by
  rw [decimalText]
  split_ifs
  · exact List.forall_mem_cons.mpr ⟨by decide, ascii_digits _⟩
  · exact ascii_digits _

theorem byteLength_decimalText (value : Int) : byteLength (decimalText value) = digitCount value :=
  byteLength_ascii (ascii_decimalText value)

def base64Length (count : Nat) : Nat := (count + 2) / 3 * 4

structure Base64Expands (encode decode : Name → Name) : Prop extends Base64Codec encode decode where
  expands : ∀ text, CString text → (encode text).length = base64Length text.length

theorem ascii_encode {encode decode : Name → Name} (codec : Base64Expands encode decode)
    {text : Name} (bytes : CString text) : Ascii (encode text) := by
  intro symbol member
  rcases codec.alphabet text bytes symbol member with letter | rfl | rfl | rfl
  · have bounds := alphanum_bounds letter
    omega
  · decide
  · decide
  · decide

theorem byteLength_encode {encode decode : Name → Name} (codec : Base64Expands encode decode)
    {text : Name} (bytes : CString text) : byteLength (encode text) = base64Length text.length := by
  rw [byteLength_ascii (ascii_encode codec bytes), codec.expands text bytes]

def lockRequestLength (config : ClientConfig) (id : Name) : Nat :=
  148 + byteLength id + base64Length config.resourceName.length + digitCount config.resourceCreate +
    digitCount config.resourceIdleLifespan.toInt +
      match rsrcGetType config.resourceName with
      | .simple | .hier => 8 + digitCount config.lockMode.index
      | .numeric => 12 + digitCount config.resourceQuantity.toInt
      | _ => 0

def unlockRequestLength (config : ClientConfig) (rollback : Int) : Nat :=
  110 + base64Length config.resourceName.length + digitCount rollback

def answerLength (id : Name) (step : Int) (element : Option Name) : Nat :=
  95 + (if step = 2 * msgStepIncr then 20 + byteLength id else 0) +
    element.elim 0 fun text => 11 + byteLength text

theorem byteLength_session (id : Name) :
    byteLength (msgSession (some id)).text = 20 + byteLength id := by
  have tag : byteLength msgTagSession = 7 := by decide
  have name : byteLength msgPropPeerid = 6 := by decide
  rw [msgSession, byteLength_empty, tag]
  simp only [propertiesLength, List.map_cons, List.map_nil, List.sum_cons, List.sum_nil, name,
    Option.getD_some]
  omega

theorem byteLength_two (first second : Lexeme) :
    byteLength (Markup.text [first, second]) = byteLength first.text + byteLength second.text := by
  rw [Markup.text_cons, Markup.text_cons, byteLength_append, byteLength_append]
  rfl

theorem byteLength_one (lexeme : Lexeme) : byteLength
    (Markup.text [lexeme]) = byteLength lexeme.text := by
  rw [Markup.text_cons, byteLength_append]
  rfl

theorem byteLength_lock {encode decode : Name → Name} (codec : Base64Expands encode decode)
    (config : ClientConfig) (bytes : CString config.resourceName) {id : Name}
    (peerid : config.peerid = some id) :
    byteLength (msgText (clientRequest config) [msgSession (clientRequest config).lock8.peerid,
      msgResource (msgLock8Properties encode (clientRequest config).lock8 config.resourceName)]) =
        lockRequestLength config id := by
  have header : byteLength (msgHeader (clientRequest config)).text = 33 := by
    show byteLength (Lexeme.start msgTagMsg
      [(msgPropLevel, decimalText 3), (msgPropVerb, decimalText 1),
      (msgPropStep, decimalText 8)]).text = 33
    decide
  have tag : byteLength msgTagResource = 8 := by decide
  have name : byteLength msgPropName = 4 := by decide
  have mode : byteLength msgPropMode = 4 := by decide
  have wait : byteLength msgPropWait = 4 := by decide
  have quantity : byteLength msgPropQuantity = 8 := by decide
  have create : byteLength msgPropCreate = 6 := by decide
  have lifespan : byteLength msgPropLifespan = 8 := by decide
  have once : digitCount config.lock8.wait = 1 := by
    simp only [ClientConfig.lock8]
    split_ifs <;> decide
  have encoded := byteLength_encode codec bytes
  rw [clientRequest_lock8, byteLength_msgText, header, byteLength_two,
    show config.lock8.peerid = some id from peerid, byteLength_session,
    msgResource, byteLength_empty, tag,
    lockRequestLength, msgLock8Properties]
  cases type : rsrcGetType config.resourceName <;>
    simp only [propertiesLength, List.map_cons, List.map_nil, List.sum_cons,
      List.sum_nil, byteLength_decimalText, name,
      mode, wait, quantity, create, lifespan, once, encoded]
  all_goals
    simp only [ClientConfig.lock8]
    omega

theorem byteLength_unlock {encode decode : Name → Name} (codec : Base64Expands encode decode)
    (config : ClientConfig) (bytes : CString config.resourceName) (rollback : Int) :
    byteLength (msgText (clientUnlockRequest config rollback) [.empty msgTagResource
      [(msgPropName, encode config.resourceName), (msgPropRollback, decimalText rollback)] 1]) =
        unlockRequestLength config rollback := by
  have header : byteLength (msgHeader (clientUnlockRequest config rollback)).text = 33 := by
    show byteLength (Lexeme.start msgTagMsg
      [(msgPropLevel, decimalText 3), (msgPropVerb, decimalText 2),
      (msgPropStep, decimalText 8)]).text = 33
    decide
  have tag : byteLength msgTagResource = 8 := by decide
  have name : byteLength msgPropName = 4 := by decide
  have undo : byteLength msgPropRollback = 8 := by decide
  rw [byteLength_msgText, header, byteLength_one, byteLength_empty, tag, unlockRequestLength]
  simp only [propertiesLength, List.map_cons, List.map_nil, List.sum_cons,
    List.sum_nil, byteLength_decimalText, name,
    undo, byteLength_encode codec bytes]
  omega

theorem byteLength_answerTag (element : Option Name) :
    byteLength (msgAnswerTag ⟨.ok, element⟩).text = 16 + element.elim 0 fun text =>
    11 + byteLength text := by
  have tag : byteLength msgTagAnswer = 6 := by decide
  have rc : byteLength msgPropRc = 2 := by decide
  have zero : digitCount Rc.ok.code = 1 := by decide
  have text : byteLength msgPropElement = 7 := by decide
  cases element <;>
    simp only [msgAnswerTag, byteLength_empty, tag, propertiesLength, List.map_cons, List.map_nil,
      List.sum_cons,
      List.sum_nil, byteLength_decimalText, rc, zero, text, Option.elim_none, Option.elim_some]
  all_goals omega

structure Answers (msg : Msg) (id : Name) (step : Int) (element : Option Name) : Prop where
  level : msg.level = msgLevel
  verb : msg.verb = .lock
  stepped : msg.step = step
  steps : step = 2 * msgStepIncr ∨ step = 3 * msgStepIncr ∨ step = 4 * msgStepIncr
  answer : msgAnswer msg = ⟨.ok, element⟩
  peerid : step = 2 * msgStepIncr → msg.peerid16 = some id

theorem answers_of_built {step : Int} {element : Option Name} (id : Name)
    (built : (msgBuildAnswer msgInit .lock step .ok element).1 = .ok) :
    Answers (msgIdentify id (msgBuildAnswer msgInit .lock step .ok element).2) id step element := by
  have answer := msgBuildAnswer_answer _ _ _ _ _ built
  have steps : step = 2 * msgStepIncr ∨ step = 3 * msgStepIncr ∨ step = 4 * msgStepIncr := by
    unfold msgBuildAnswer at built
    split_ifs at built with first others
    · exact .inl first
    · exact .inr others
  obtain first | others := steps
  · rw [first] at answer ⊢
    exact ⟨rfl, rfl, rfl, .inl rfl, answer, fun _ => Cell.string_text .heap id⟩
  · have later : step ≠ 2 * msgStepIncr := by
      simp only [msgStepIncr] at others ⊢
      omega
    have same : msgIdentify id (msgBuildAnswer msgInit .lock step .ok element).2 =
        (msgBuildAnswer msgInit .lock step .ok element).2 := by
      rw [msgIdentify, msgBuildAnswer_step, if_neg fun both => later both.2]
    rw [same]
    refine ⟨?_, ?_, msgBuildAnswer_step _ _ _ _ _, .inr others, answer, fun first =>
      absurd first later⟩
    · simp [msgBuildAnswer, later, others]
    · simp [msgBuildAnswer, later, others]

theorem answers_length {encode : Name → Name} {msg : Msg} {id : Name} {step : Int}
    {element : Option Name} (answers : Answers msg id step element) :
    ∃ body, Sent encode msg body ∧
      byteLength (msgText msg body) = answerLength id step element := by
  have header : byteLength (msgHeader msg).text = 34 := by
    rw [msgHeader, answers.level, answers.verb, answers.stepped]
    obtain rfl | rfl | rfl := answers.steps <;> decide
  obtain first | third | fourth := answers.steps
  · have here : msg.lock16 = ⟨.ok, element⟩ := by
      rw [← answers.answer, msgAnswer, if_pos (answers.stepped.trans first)]
    refine ⟨_, .lock16 answers.verb (answers.stepped.trans first), ?_⟩
    rw [byteLength_msgText, header, byteLength_two, answers.peerid first, here, byteLength_session,
      byteLength_answerTag, answerLength, if_pos first]
    omega
  · have later : step ≠ 2 * msgStepIncr := by
      rw [third]
      decide
    have here : msg.lock24 = ⟨.ok, element⟩ := by
      rw [← answers.answer, msgAnswer, answers.stepped, if_neg later, if_pos third]
    refine ⟨_, .lock24 answers.verb (answers.stepped.trans third), ?_⟩
    rw [byteLength_msgText, header, byteLength_one, here, byteLength_answerTag, answerLength,
      if_neg later]
    omega
  · have later : step ≠ 2 * msgStepIncr ∧ step ≠ 3 * msgStepIncr := by
      rw [fourth]
      decide
    have here : msg.lock32 = ⟨.ok, element⟩ := by
      rw [← answers.answer, msgAnswer, answers.stepped, if_neg later.1, if_neg later.2]
    refine ⟨_, .lock32 answers.verb (answers.stepped.trans fourth), ?_⟩
    rw [byteLength_msgText, header, byteLength_one, here, byteLength_answerTag, answerLength,
      if_neg later.1]
    omega

section

variable {Data Wait : Type} {m : Scan.Manager Data Wait ConnId}

theorem rsrcLock_built {request : Request Data Wait} {rsrc : Rsrc Data Wait} {lastStep : Int}
    {msg : Msg} (done : (rsrcLock m request rsrc lastStep msg).rc = .ok) :
    ∃ rc element, (msgBuildAnswer msgInit .lock (lastStep + msgStepIncr) rc element).1 = .ok ∧
      (rsrcLock m request rsrc lastStep msg).msg =
        (msgBuildAnswer msgInit .lock (lastStep + msgStepIncr) rc element).2 := by
  unfold rsrcLock at done ⊢
  split at done
  · by_cases can : m.can rsrc.data request.waiter = true
    · simp only [can, if_true] at done ⊢
      exact ⟨_, _, done, rfl⟩
    · by_cases wait : request.wait = true
      · simp only [can, wait, if_true, if_false, Bool.false_eq_true] at done ⊢
        exact ⟨_, _, done, rfl⟩
      · simp only [can, wait, if_false, Bool.false_eq_true] at done ⊢
        exact ⟨_, _, done, rfl⟩
  · next rc spent unfreed freed => exact absurd done unfreed

end

theorem resourceInmsg_built {resource : Resource} {conn : ConnId} {lastStep : Int} {msg : Msg}
    {env : Env} (done : (resourceInmsg resource conn lastStep msg env).rc = .ok)
    (ready : (resourceInmsg resource conn lastStep msg env).msg.state = .ready) :
    ∃ rc element, (msgBuildAnswer msgInit .lock (lastStep + msgStepIncr) rc element).1 = .ok ∧
      (resourceInmsg resource conn lastStep msg env).msg =
        (msgBuildAnswer msgInit .lock (lastStep + msgStepIncr) rc element).2 := by
  have lock := resourceInmsg_posted done ready
  cases resource with
  | simple rsrc =>
    simp only [resourceInmsg, resourceSimpleInmsg, lock, answerOfInmsg] at done ⊢
    exact rsrcLock_built done
  | numeric rsrc =>
    simp only [resourceInmsg, resourceNumericInmsg, lock, answerOfInmsg] at done ⊢
    exact rsrcLock_built done
  | set rsrc =>
    simp only [resourceInmsg, resourceSetInmsg, lock, answerOfInmsg] at done ⊢
    exact rsrcLock_built done
  | hier rsrc =>
    cases named : msg.lock8.name with
    | none =>
      simp [resourceInmsg, resourceHierInmsg, lock, named, answerOfInmsg, inmsgError] at done
    | some name =>
      simp only [resourceInmsg, resourceHierInmsg, lock, named, answerOfInmsg] at done ⊢
      exact rsrcLock_built done
  | sequence rsrc =>
    simp only [resourceInmsg, resourceSequenceInmsg, lock, answerOfInmsg] at done ⊢
    exact rsrcLock_built done
  | timestamp rsrc =>
    simp only [resourceInmsg, resourceTimestampInmsg, lock, answerOfInmsg] at done ⊢
    exact rsrcLock_built done

def Opens (text : List UInt8) : Prop := text.IsChain fun first second => ¬(first = 60 ∧ second = 47)

structure Sealed (text : List UInt8) : Prop where
  opens : Opens text
  last : ∀ symbol ∈ text.getLast?, symbol ≠ 60

theorem Sealed.append {front rest : List UInt8} (first : Sealed front) (second : Sealed rest) :
    Sealed (front ++ rest) where
  opens := first.opens.append second.opens fun symbol member _ _ both =>
    first.last symbol member both.1
  last := by
    intro symbol member
    cases rest with
    | nil =>
      rw [List.append_nil] at member
      exact first.last symbol member
    | cons next rest =>
      rw [List.getLast?_append_of_ne_nil _ (List.cons_ne_nil next rest)] at member
      exact second.last symbol member

theorem bytesOf_append (front rest : Name) : bytesOf
    (front ++ rest) = bytesOf front ++ bytesOf rest := List.map_append

theorem bytesOf_ne {text : Name} (ascii : Ascii text) (other : Char) (small : other.toNat < 128)
    (absent : other ∉ text) : UInt8.ofNat other.toNat ∉ bytesOf text := by
  intro member
  obtain ⟨symbol, here, same⟩ := List.mem_map.mp member
  have low := ascii symbol here
  have equal : symbol.toNat = other.toNat := by
    have codes := congrArg UInt8.toNat same
    simp only [UInt8.toNat_ofNat'] at codes
    omega
  exact absent (Char.toNat_inj.mp equal ▸ here)

theorem opens_of_not_mem {text : List UInt8} (absent : 60 ∉ text) : Opens text := by
  induction text with
  | nil => exact List.isChain_nil
  | cons symbol text ih =>
    rw [List.mem_cons, not_or] at absent
    exact (ih absent.2).cons fun _ _ both => absent.1 both.1.symm

theorem sealed_of {inner : Name} (ascii : Ascii inner) (inside : '<' ∉ inner)
    (head : inner.head? ≠ some '/') :
    Sealed (bytesOf ('<' :: (inner ++ ['>']))) := by
  have whole : bytesOf ('<' :: (inner ++ ['>'])) = 60 :: (bytesOf inner ++ [62]) := by
    rw [bytesOf, List.map_cons, List.map_append]
    rfl
  have absent : (60 : UInt8) ∉ bytesOf inner := bytesOf_ne ascii '<' (by decide) inside
  have rest : Opens (bytesOf inner ++ [62]) := opens_of_not_mem (by simpa using absent)
  rw [whole]
  constructor
  · refine rest.cons fun symbol member both => ?_
    cases inner with
    | nil =>
      have same : symbol = 62 := by simpa [bytesOf, eq_comm] using member
      rw [same] at both
      exact absurd both.2 (by decide)
    | cons first inner =>
      have same : symbol = UInt8.ofNat first.toNat := by simpa [bytesOf, eq_comm] using member
      have slash : first ≠ '/' := fun equal => head (by rw [equal, List.head?_cons])
      have one : Ascii [first] := List.forall_mem_singleton.mpr (ascii first List.mem_cons_self)
      have other := bytesOf_ne one '/' (by decide) (by simpa [eq_comm] using slash)
      exact other (by simpa [bytesOf, ← same] using both.2.symm)
  · intro symbol member
    rw [← List.cons_append, List.getLast?_append_of_ne_nil _ (List.cons_ne_nil _ _)] at member
    have same : symbol = 62 := by simpa [eq_comm] using member
    rw [same]
    decide

theorem ascii_append {front rest : Name} (first : Ascii front) (second : Ascii rest) :
    Ascii (front ++ rest) :=
  List.forall_mem_append.mpr ⟨first, second⟩

theorem ascii_name {name : Name} (isName : Markup.IsName name) : Ascii name ∧ '<' ∉ name := by
  have kinds : ∀ symbol ∈ name,
      symbol.isAlphanum = true ∨ symbol = '_' ∨ symbol = '-' ∨ symbol = '.' ∨ symbol = ':' := by
    intro symbol member
    simpa [Markup.nameSymbol, or_assoc] using isName.symbols symbol member
  constructor
  · intro symbol member
    rcases kinds symbol member with letter | rfl | rfl | rfl | rfl
    · have bounds := alphanum_bounds letter
      omega
    all_goals decide
  · intro member
    have same := isName.symbols '<' member
    exact absurd same (by decide)

structure Inner (text : Name) : Prop where
  ascii : Ascii text
  inside : '<' ∉ text

theorem Inner.append {front rest : Name} (first : Inner front) (second : Inner rest) :
    Inner (front ++ rest) :=
  ⟨ascii_append first.ascii second.ascii, fun member =>
    (List.mem_append.mp member).elim first.inside second.inside⟩

theorem inner_value {value : Name} (isValue : Markup.IsValue value) (ascii : Ascii value) :
    Inner value :=
  ⟨ascii, fun member => absurd (isValue '<' member) (by decide)⟩

theorem inner_properties {properties : List (Name × Name)} (are : Markup.AreProperties properties)
    (ascii : ∀ property ∈ properties, Ascii property.2) :
    Inner (properties.flatMap Markup.propertyText) := by
  induction properties with
  | nil => exact ⟨fun _ member => absurd member List.not_mem_nil, List.not_mem_nil⟩
  | cons property properties ih =>
    have name := ascii_name (are.names property List.mem_cons_self)
    have value := inner_value (are.values property List.mem_cons_self)
      (ascii property List.mem_cons_self)
    have rest := ih are.tail fun other member => ascii other (List.mem_cons_of_mem _ member)
    have split : Markup.propertyText property = [' '] ++
        (property.1 ++ (['=', '"'] ++ (property.2 ++ ['"']))) := by
      simp [Markup.propertyText]
    rw [List.flatMap_cons, split]
    refine Inner.append (Inner.append ⟨by decide, by decide⟩ (Inner.append ⟨name.1, name.2⟩
      (Inner.append ⟨by decide, by decide⟩ (value.append ⟨by decide, by decide⟩)))) rest

def AsciiValues : Lexeme → Prop
  | .instruction _ | .stop _ => False
  | .start _ properties | .empty _ properties _ => ∀ property ∈ properties, Ascii property.2

theorem head_of_name {name rest : Name} (isName : Markup.IsName name) :
    (name ++ rest).head? ≠ some '/' := by
  obtain ⟨symbol, others, rfl, named⟩ := isName.head
  intro same
  rw [List.cons_append, List.head?_cons] at same
  rw [Option.some.inj same] at named
  exact absurd named (by decide)

theorem sealed_lexeme {lexeme : Lexeme} (plain : lexeme.Plain) (ascii : AsciiValues lexeme) :
    Sealed (bytesOf lexeme.text) ∧ Ascii lexeme.text := by
  cases lexeme with
  | instruction content => exact absurd ascii not_false
  | stop tag => exact absurd ascii not_false
  | start tag properties =>
    have name := ascii_name plain.1
    have inner : Inner (tag ++ properties.flatMap Markup.propertyText) :=
      Inner.append ⟨name.1, name.2⟩ (inner_properties plain.2 ascii)
    refine ⟨sealed_of inner.ascii inner.inside (head_of_name plain.1), ?_⟩
    exact List.forall_mem_cons.mpr ⟨by decide, ascii_append inner.ascii (by decide)⟩
  | empty tag properties blanks =>
    have name := ascii_name plain.1
    have gap : Inner (List.replicate blanks ' ' ++ ['/']) := by
      refine Inner.append ⟨fun c member => ?_, fun member => ?_⟩ ⟨by decide, by decide⟩
      · rw [List.eq_of_mem_replicate member]
        decide
      · exact absurd (List.eq_of_mem_replicate member) (by decide)
    have inner : Inner
        (tag ++ (properties.flatMap Markup.propertyText ++ (List.replicate blanks ' ' ++ ['/']))) :=
      Inner.append ⟨name.1, name.2⟩ ((inner_properties plain.2 ascii).append gap)
    have text : (Lexeme.empty tag properties blanks).text =
        '<' ::
          (tag ++ (properties.flatMap Markup.propertyText ++ (List.replicate blanks ' ' ++ ['/']))
          ++ ['>']) := by
      simp [Markup.Lexeme.text]
    rw [text]
    refine ⟨sealed_of inner.ascii inner.inside (head_of_name plain.1), ?_⟩
    exact List.forall_mem_cons.mpr ⟨by decide, ascii_append inner.ascii (by decide)⟩

theorem sealed_body {body : List Lexeme} (plain : ∀ lexeme ∈ body, lexeme.Plain)
    (ascii : ∀ lexeme ∈ body, AsciiValues lexeme) :
    Sealed (bytesOf (Markup.text body)) ∧ Ascii (Markup.text body) := by
  induction body with
  | nil => exact ⟨⟨List.isChain_nil, fun _ member => by simp [bytesOf, Markup.text] at member⟩,
      fun _ member => absurd member List.not_mem_nil⟩
  | cons lexeme body ih =>
    obtain ⟨first, letters⟩ := sealed_lexeme (plain lexeme List.mem_cons_self)
      (ascii lexeme List.mem_cons_self)
    obtain ⟨rest, others⟩ := ih (fun other member => plain other (List.mem_cons_of_mem _ member))
      fun other member => ascii other (List.mem_cons_of_mem _ member)
    rw [Markup.text_cons, bytesOf_append]
    exact ⟨first.append rest, ascii_append letters others⟩

theorem firstEnd_of_sealed {front : Name} (closed : Sealed (bytesOf front)) (others : List UInt8) :
    FirstEnd (bytesOf front ++ closingTag ++ others) (front.length + 6) where
  inside := by
    have six := closingTag_length
    rw [List.length_append, List.length_append, bytesOf, List.length_map]
    omega
  ends := by
    have whole : (bytesOf front ++ closingTag).length = front.length + 6 := by
      rw [List.length_append, closingTag_length, bytesOf, List.length_map]
    rw [← whole, List.take_left]
    exact List.suffix_append _ _
  first earlier before found := by
    obtain ⟨start, same⟩ := found
    have tag : closingTag = [60, 47] ++ [109, 115, 103, 62] := by decide
    have sealedTag : bytesOf front ++ [60] <+: bytesOf front ++ closingTag ++ others := by
      rw [tag]
      exact ⟨[47, 109, 115, 103, 62] ++ others, by simp⟩
    have begun : start ++ [60, 47] <+: bytesOf front ++ closingTag ++ others := by
      refine List.IsPrefix.trans ?_ (List.take_prefix earlier _)
      rw [← same, tag, ← List.append_assoc]
      exact List.prefix_append _ _
    have short : (start ++ [60, 47]).length ≤ (bytesOf front ++ [60]).length := by
      have lengths := congrArg List.length same
      rw [List.length_append, closingTag_length, List.length_take] at lengths
      rw [List.length_append, List.length_append, bytesOf, List.length_map]
      simp only [List.length_cons, List.length_nil]
      omega
    have inner := List.prefix_of_prefix_length_le begun sealedTag short
    have whole : Opens (bytesOf front ++ [60]) :=
      closed.opens.append (List.isChain_singleton _) fun symbol member _ _ both =>
        closed.last symbol member both.1
    have pair : Opens [60, 47] := whole.infix
      ((List.infix_append start [60, 47] []).trans (by simpa using inner.isInfix))
    exact (List.isChain_cons_cons.mp pair).1 ⟨rfl, rfl⟩

theorem connRecv_framed {stream : List UInt8} {final len : Nat} (first : FirstEnd stream final)
    (late : 11 ≤ final) (large : 12 ≤ len) (tls : Bool) {recv : Nat → Nat → Int}
    (fragments : Fragments recv) (memory : Nat → UInt8) :
    ∃ result, connRecv tls recv stream memory len = some result ∧
    Framed stream final len memory result := by
  cases tls with
  | false => exact recvMsg_framed .recvError fragments first late large
  | true => exact recvMsg_framed .sslReadError fragments first late large

theorem msgBufferSize_large : 12 ≤ msgBufferSize := by
  decide

def msgFront (msg : Msg) (body : List Lexeme) : Name :=
  (Lexeme.instruction msgDeclaration).text ++ ((msgHeader msg).text ++ Markup.text body)

theorem msgText_eq (msg : Msg) (body : List Lexeme) :
    msgText msg body = msgFront msg body ++ (['<', '/'] ++ msgTagMsg ++ ['>']) := by
  have lexemes : (msgDocument msg body).lexemes =
      .instruction msgDeclaration :: msgHeader msg :: (body ++ [.stop msgTagMsg]) := rfl
  have closing : Markup.text [.stop msgTagMsg] = ['<', '/'] ++ msgTagMsg ++ ['>'] := rfl
  rw [msgText, lexemes, Markup.text_cons, Markup.text_cons, Markup.text, List.flatMap_append,
    msgFront,
    List.append_assoc, List.append_assoc, ← closing]
  rfl

theorem msgFront_sealed {msg : Msg} {body : List Lexeme} (proper : (msgDocument msg body).Proper)
    (ascii : ∀ lexeme ∈ body, AsciiValues lexeme) :
    Sealed (bytesOf (msgFront msg body)) ∧ Ascii (msgFront msg body) := by
  have declaration : Sealed (bytesOf (Lexeme.instruction msgDeclaration).text) :=
    @sealed_of ('?' :: (msgDeclaration ++ ['?'])) (by decide) (by decide) (by decide)
  have plain : ∀ lexeme ∈ msgHeader msg :: (body ++ [.stop msgTagMsg]), lexeme.Plain :=
    fun lexeme member => proper.plain lexeme (List.mem_cons_of_mem _ member)
  have numbers : AsciiValues (msgHeader msg) :=
    List.forall_mem_cons.mpr ⟨ascii_decimalText _, List.forall_mem_cons.mpr ⟨ascii_decimalText _,
      List.forall_mem_singleton.mpr (ascii_decimalText _)⟩⟩
  obtain ⟨header, letters⟩ := sealed_lexeme (plain (msgHeader msg) List.mem_cons_self) numbers
  obtain ⟨inner, texts⟩ := sealed_body (fun lexeme member =>
    plain lexeme (List.mem_cons_of_mem _ (List.mem_append_left _ member))) ascii
  rw [msgFront, bytesOf_append, bytesOf_append]
  exact ⟨declaration.append (header.append inner),
    ascii_append (by decide) (ascii_append letters texts)⟩

theorem receivedWhole_iff {msg : Msg} {body : List Lexeme} (proper : (msgDocument msg body).Proper)
    (ascii : ∀ lexeme ∈ body, AsciiValues lexeme) :
    ReceivedWhole (msgText msg body) ↔ byteLength (msgText msg body) < msgBufferSize := by
  obtain ⟨closed, letters⟩ := msgFront_sealed proper ascii
  have ending : Ascii (['<', '/'] ++ msgTagMsg ++ ['>']) := by decide
  have long : (msgText msg body).length = (msgFront msg body).length + 6 := by
    rw [msgText_eq, List.length_append]
    rfl
  have bytes : byteLength (msgText msg body) = (msgFront msg body).length + 6 := by
    rw [← long, byteLength_ascii]
    rw [msgText_eq]
    exact ascii_append letters ending
  have late : 11 ≤ (msgFront msg body).length + 6 := by
    have declaration : 11 ≤ (Lexeme.instruction msgDeclaration).text.length := by decide
    rw [msgFront, List.length_append]
    omega
  have stream : ∀ others, bytesOf (msgText msg body) ++ others =
      bytesOf (msgFront msg body) ++ closingTag ++ others := by
    intro others
    rw [msgText_eq, bytesOf_append]
    rfl
  rw [bytes]
  constructor
  · intro whole
    have fragments : Fragments fun _ toBeRead => (toBeRead : Int) := fun _ toBeRead asked => by
      dsimp only
      omega
    obtain ⟨result, run, ok, _⟩ := whole false (fun _ toBeRead => (toBeRead : Int)) (fun _ => 0)
      [] fragments
    obtain ⟨framed, again, _, overflow, _⟩ :=
      connRecv_framed (firstEnd_of_sealed closed []) late msgBufferSize_large false
        fragments fun _ => 0
    rw [stream, again] at run
    rw [← Option.some.inj run] at ok
    by_contra large
    rw [(overflow (by omega)).1] at ok
    cases ok
  · intro small tls recv memory others fragments
    obtain ⟨result, run, fits, _⟩ :=
      connRecv_framed (firstEnd_of_sealed closed others) late msgBufferSize_large tls fragments
        memory
    obtain ⟨ok, received, _⟩ := fits small
    rw [stream, long]
    exact ⟨result, run, ok, received⟩

theorem Sent.of_lock8 {encode : Name → Name} {msg : Msg} {body : List Lexeme}
    (sent : Sent encode msg body) (verb : msg.verb = .lock) (step : msg.step = msgStepIncr) :
    ∃ resource, msg.lock8.name = some resource ∧
      body = [msgSession msg.lock8.peerid,
      msgResource (msgLock8Properties encode msg.lock8 resource)] := by
  cases sent with
  | lock8 _ _ named _ => exact ⟨_, named, rfl⟩
  | lock16 _ other | lock24 _ other | lock32 _ other =>
    rw [step] at other
    exact absurd other (by decide)
  | unlock8 other | ping other | discover8 other | discover16 other | mngmnt8 other =>
    rw [verb] at other
    cases other

theorem Sent.of_unlock8 {encode : Name → Name} {msg : Msg} {body : List Lexeme}
    (sent : Sent encode msg body)
    (verb : msg.verb = .unlock) :
    ∃ resource, msg.unlock8.name = some resource ∧ body = [.empty msgTagResource
      [(msgPropName, encode resource), (msgPropRollback, decimalText msg.unlock8.rollback)] 1] := by
  cases sent with
  | unlock8 _ _ named => exact ⟨_, named, rfl⟩
  | lock8 other | lock16 other | lock24 other | lock32 other | ping other | discover8 other
  | discover16 other
  | mngmnt8 other =>
    rw [verb] at other
    cases other

theorem lock_received_iff {encode decode : Name → Name} (codec : Base64Expands encode decode)
    {config : ClientConfig} (bytes : CString config.resourceName) {id : Name}
    (peerid : config.peerid = some id) (plain : Markup.IsValue id) (ascii : Ascii id) {text : Name}
    (serialized : clientLockSerialize encode config = .ok text) :
    ReceivedWhole text ↔ lockRequestLength config id < msgBufferSize := by
  rw [clientLockSerialize, peerid] at serialized
  obtain ⟨body, sent, rfl, _⟩ := msgSerialize_ok (fun other => by cases other) serialized
  have names : ∀ name ∈ (clientRequest config).names, CString name := by
    change ∀ name ∈ (clientRequest config).lock8.name.toList, CString name
    rw [clientRequest_lock8]
    exact List.forall_mem_singleton.mpr bytes
  have strings : ∀ name ∈ (clientRequest config).strings, Markup.IsValue name := by
    change ∀ name ∈ (clientRequest config).lock8.peerid.toList, Markup.IsValue name
    rw [clientRequest_lock8, ClientConfig.lock8, peerid]
    exact List.forall_mem_singleton.mpr plain
  have proper := Sent.proper codec.toBase64Codec names strings sent
  obtain ⟨resource, named, rfl⟩ := sent.of_lock8 rfl rfl
  cases named
  have session : AsciiValues (msgSession (clientRequest config).lock8.peerid) := by
    rw [clientRequest_lock8, ClientConfig.lock8, peerid]
    exact List.forall_mem_singleton.mpr ascii
  have properties :
      AsciiValues
        (msgResource (msgLock8Properties encode
        (clientRequest config).lock8 config.resourceName)) := by
    unfold msgLock8Properties
    split <;> simp only [msgResource, AsciiValues, List.forall_mem_cons, ascii_encode codec bytes,
      ascii_decimalText,
      List.not_mem_nil, IsEmpty.forall_iff, implies_true, and_self]
  rw [receivedWhole_iff proper
    (List.forall_mem_cons.mpr ⟨session, List.forall_mem_singleton.mpr properties⟩)]
  exact iff_of_eq (congrArg (· < msgBufferSize) (byteLength_lock codec config bytes peerid))

theorem unlock_received_iff {encode decode : Name → Name} (codec : Base64Expands encode decode)
    {config : ClientConfig} (bytes : CString config.resourceName) {rollback : Int} {text : Name}
    (serialized : clientUnlockSerialize encode config rollback = .ok text) :
    ReceivedWhole text ↔ unlockRequestLength config rollback < msgBufferSize := by
  obtain ⟨body, sent, rfl, _⟩ := msgSerialize_ok (fun other => by cases other) serialized
  have names : ∀ name ∈ (clientUnlockRequest config rollback).names, CString name :=
    List.forall_mem_singleton.mpr bytes
  have strings : ∀ name ∈ (clientUnlockRequest config rollback).strings, Markup.IsValue name :=
    fun _ member => absurd member List.not_mem_nil
  have proper := Sent.proper codec.toBase64Codec names strings sent
  obtain ⟨resource, named, rfl⟩ := sent.of_unlock8 rfl
  cases named
  rw [receivedWhole_iff proper (List.forall_mem_singleton.mpr (List.forall_mem_cons.mpr
    ⟨ascii_encode codec bytes, List.forall_mem_singleton.mpr (ascii_decimalText _)⟩))]
  exact iff_of_eq (congrArg (· < msgBufferSize) (byteLength_unlock codec config bytes rollback))

structure GrantedAtOnce (answer : ResourceAnswer) : Prop where
  rc : answer.rc = .ok
  state : answer.msg.state = .ready
  granted : (msgAnswer answer.msg).rc = .ok

theorem answer_fits_iff (encode : Name → Name) {resource : Resource} {conn : ConnId}
    {lastStep : Int} {msg : Msg} {env : Env} (id : Name)
    (granted : GrantedAtOnce (resourceInmsg resource conn lastStep msg env)) :
    (∃ text, lockerAnswerSerialize encode
        (msgIdentify id (resourceInmsg resource conn lastStep msg env).msg) = .ok text) ↔
      answerLength id (lastStep + msgStepIncr)
        (msgAnswer (resourceInmsg resource conn lastStep msg env).msg).element <
        msgBufferSize := by
  obtain ⟨done, ready, ok⟩ := granted
  obtain ⟨rc, element, built, same⟩ := resourceInmsg_built done ready
  have answer := msgBuildAnswer_answer _ _ _ _ _ built
  rw [same, answer] at ok
  obtain rfl : rc = .ok := ok
  obtain ⟨body, sent, length⟩ := answers_length (answers_of_built id built)
  rw [same, answer, lockerAnswerSerialize, msgSerialize_eq sent, length]
  split_ifs with fits
  · exact iff_of_true ⟨_, rfl⟩ fits
  · exact iff_of_false (fun ⟨_, same⟩ => by cases same) fits

theorem message_sizes_iff (encode decode : Name → Name) (codec : Base64Expands encode decode)
    (config : ClientConfig) (bytes : CString config.resourceName) (id : Name)
    (peerid : config.peerid = some id) (plain : Markup.IsValue id) (ascii : Ascii id)
    (rollback : Int) (resource : Resource) (conn : ConnId) (lastStep : Int) (msg : Msg) (env : Env)
    (serverId : Name) :
    (∀ text, clientLockSerialize encode config = .ok text →
        (ReceivedWhole text ↔ lockRequestLength config id < msgBufferSize)) ∧
      (∀ text, clientUnlockSerialize encode config rollback = .ok text →
        (ReceivedWhole text ↔ unlockRequestLength config rollback < msgBufferSize)) ∧
      let answer := resourceInmsg resource conn lastStep msg env
      (GrantedAtOnce answer →
        ((∃ text, lockerAnswerSerialize encode (msgIdentify serverId answer.msg) = .ok text) ↔
          answerLength serverId (lastStep + msgStepIncr) (msgAnswer answer.msg).element <
            msgBufferSize)) :=
  ⟨fun _ => lock_received_iff codec bytes peerid plain ascii, fun _ =>
    unlock_received_iff codec bytes,
    answer_fits_iff encode serverId⟩

theorem base64_expands : Base64Expands base64Encode base64Decode where
  toBase64Codec := base64_codec
  expands text _ := by
    rw [base64Encode, Base64.encode_length, List.length_map]
    rfl

def machineId : Name := List.replicate 32 'a'

def longConfig : ClientConfig where
  peerid := some machineId
  resourceName := List.replicate 300 'r'
  lockMode := .ex
  resourceTimeout := -1
  resourceQuantity := 1
  resourceCreate := 1
  resourceIdleLifespan := 0
  tlsCheckPeerId := false

theorem longName_type : rsrcGetType longConfig.resourceName = .simple := by
  have absent : '\n' ∉ longConfig.resourceName := fun member =>
    absurd (List.eq_of_mem_replicate member) (by decide)
  have letters : identifier longConfig.resourceName = true := by
    rw [longConfig, List.replicate_succ, identifier, List.all_replicate]
    decide
  have simple : matchType .simple longConfig.resourceName = true := by
    rw [matchType, matchSimple, letters, Bool.or_true]
  rw [rsrcGetType, rsrcLines, List.splitOn_eq_singleton absent, rsrcTypes, List.find?_cons,
    List.any_cons, simple]
  rfl

theorem longName_bytes : CString longConfig.resourceName := by
  intro c member
  rw [List.eq_of_mem_replicate member]
  decide

-- The incubator hands on a LOCK whose last step is 16.
theorem message_sizes_iff_long :
    let answer :=
      resourceInmsg (.set (resourceSetInit ['a', '.', 'b'])) 1 16
        (msgLock ['a', '.', 'b'] .ex 1 1 1) .fine
    (∀ text, clientLockSerialize base64Encode longConfig = .ok text →
        (ReceivedWhole text ↔ lockRequestLength longConfig machineId < msgBufferSize)) ∧
      (∀ text, clientUnlockSerialize base64Encode longConfig 0 = .ok text →
        (ReceivedWhole text ↔ unlockRequestLength longConfig 0 < msgBufferSize)) ∧
      (msgAnswer answer.msg).element = some ['a'] ∧
      ((∃ text, lockerAnswerSerialize base64Encode (msgIdentify machineId answer.msg) = .ok text) ↔
        answerLength machineId 24 (some ['a']) < msgBufferSize) := by
  intro answer
  have element : (msgAnswer answer.msg).element = some ['a'] := by decide
  obtain ⟨lock, unlock, fits⟩ := message_sizes_iff base64Encode base64Decode base64_expands
    longConfig longName_bytes machineId rfl (by decide) (by decide) 0
    (.set (resourceSetInit ['a', '.', 'b'])) 1 16
    (msgLock ['a', '.', 'b'] .ex 1 1 1) .fine machineId
  exact ⟨lock, unlock, element, element ▸ fits ⟨by decide, by decide, by decide⟩⟩

theorem long_name_disagrees :
    ∃ text, clientLockSerialize base64Encode longConfig = .ok text ∧ ¬ReceivedWhole text := by
  have sent : Sent base64Encode (clientRequest longConfig)
      [msgSession (clientRequest longConfig).lock8.peerid,
      msgResource (msgLock8Properties base64Encode
      (clientRequest longConfig).lock8 longConfig.resourceName)] :=
    .lock8 rfl rfl rfl (by rw [longName_type]; decide)
  have long : lockRequestLength longConfig machineId = 591 := by
    have id : byteLength machineId = 32 := by decide
    have name : longConfig.resourceName.length = 300 := List.length_replicate
    rw [lockRequestLength, longName_type, id, name]
    decide
  have serialized := msgSerialize_eq sent networkBufferSize
  rw [byteLength_lock base64_expands longConfig longName_bytes rfl, long, if_pos (by decide)]
    at serialized
  refine ⟨_, serialized, fun whole => ?_⟩
  have small := (lock_received_iff base64_expands longName_bytes rfl (by decide)
    (by decide) serialized).mp whole
  rw [long] at small
  exact absurd small (by decide)

end Flom
