import Flom.Lib.Printing
import Flom.MsgRoundTrip

set_option autoImplicit false

namespace Flom

open Markup (Lexeme)
open Printing

def utf8 (text : Name) : List UInt8 := text.flatMap String.utf8EncodeChar

def putLexeme (lexeme : Lexeme) : Print Rc Unit := put .containerFull (utf8 lexeme.text)

def msgSerializeIntoLock8 (encode : Name → Name) (msg : Msg) : Print Rc Unit :=
  match msg.lock8.name with
  | none => throw .crash
  | some resource => do
    let name := (msgPropName, encode resource)
    let mode := (msgPropMode, decimalText msg.lock8.mode.index)
    let wait := (msgPropWait, decimalText msg.lock8.wait)
    let quantity := (msgPropQuantity, decimalText msg.lock8.quantity.toInt)
    let create := (msgPropCreate, decimalText msg.lock8.create)
    let lifespan := (msgPropLifespan, decimalText msg.lock8.lifespan.toInt)
    putLexeme (msgSession msg.lock8.peerid)
    match rsrcGetType resource with
    | .simple => putLexeme (msgResource [name, mode, wait, create, lifespan])
    | .numeric => putLexeme (msgResource [name, wait, quantity, create, lifespan])
    | .set => putLexeme (msgResource [name, wait, create, lifespan])
    | .hier => putLexeme (msgResource [name, mode, wait, create, lifespan])
    | .sequence | .timestamp => putLexeme (msgResource [name, wait, create, lifespan])
    | .null => throw .invalidResourceName

def msgSerializeIntoLock16 (msg : Msg) : Print Rc Unit := do
  putLexeme (msgSession msg.peerid16)
  putLexeme (msgAnswerTag msg.lock16)

def msgSerializeIntoLock24 (msg : Msg) : Print Rc Unit := putLexeme (msgAnswerTag msg.lock24)

def msgSerializeIntoLock32 (msg : Msg) : Print Rc Unit := putLexeme (msgAnswerTag msg.lock32)

def msgSerializeIntoUnlock8 (encode : Name → Name) (msg : Msg) : Print Rc Unit :=
  match msg.unlock8.name with
  | none => throw .crash
  | some resource =>
    putLexeme (.empty msgTagResource
      [(msgPropName, encode resource), (msgPropRollback, decimalText msg.unlock8.rollback)] 1)

def msgSerializeIntoPing8 : Print Rc Unit := pure ()

def msgSerializeIntoPing16 : Print Rc Unit := pure ()

def msgSerializeIntoDiscover8 : Print Rc Unit := pure ()

def msgSerializeIntoDiscover16 (msg : Msg) : Print Rc Unit :=
  putLexeme (.empty msgTagNetwork
    [(msgPropAddress, msg.discover16.address.getD []),
      (msgPropPort, decimalText msg.discover16.port)] 0)

/-- Without an action the length of the session tag is still in used_chars when it is counted
again. -/
def msgSerializeIntoMngmnt8 (msg : Msg) : Print Rc Unit := do
  let used ← print (utf8 (msgSession msg.mngmnt8.peerid).text)
  advance .containerFull used
  let used ← match msg.mngmnt8.shutdown with
    | some immediate =>
      print (utf8 (Lexeme.empty msgTagShutdown [(msgPropImmediate, decimalText immediate)] 0).text)
    | none => pure used
  advance .containerFull used

def msgSerializeIntoBody (encode : Name → Name) (msg : Msg) : Print Rc Unit :=
  match msg.verb with
  | .lock =>
    if msg.step = msgStepIncr then msgSerializeIntoLock8 encode msg
    else if msg.step = 2 * msgStepIncr then msgSerializeIntoLock16 msg
    else if msg.step = 3 * msgStepIncr then msgSerializeIntoLock24 msg
    else if msg.step = 4 * msgStepIncr then msgSerializeIntoLock32 msg
    else throw .internalError
  | .unlock =>
    if msg.step = msgStepIncr then msgSerializeIntoUnlock8 encode msg else throw .internalError
  | .ping =>
    if msg.step = msgStepIncr then msgSerializeIntoPing8
    else if msg.step = 2 * msgStepIncr then msgSerializeIntoPing16
    else throw .internalError
  | .discover =>
    if msg.step = msgStepIncr then msgSerializeIntoDiscover8
    else if msg.step = 2 * msgStepIncr then msgSerializeIntoDiscover16 msg
    else throw .internalError
  | .mngmnt => if msg.step = msgStepIncr then msgSerializeIntoMngmnt8 msg else throw .internalError
  | .null | .other _ => throw .internalError

def msgSerializeInto (encode : Name → Name) (msg : Msg) : Print Rc Unit := do
  putLexeme (.instruction msgDeclaration)
  putLexeme (msgHeader msg)
  msgSerializeIntoBody encode msg
  putLexeme (.stop msgTagMsg)

def msgSerializeRun (encode : Name → Name) (msg : Msg) (memory : Nat → UInt8) (len : UInt64) :
    EStateM.Result Rc Cells Unit :=
  msgSerializeInto encode msg ⟨memory, 0, len.toNat⟩

def Actionless (msg : Msg) : Prop :=
  msg.verb = .mngmnt ∧ msg.step = msgStepIncr ∧ msg.mngmnt8.shutdown = none

instance actionlessDecidable (msg : Msg) : Decidable (Actionless msg) :=
  inferInstanceAs (Decidable (_ ∧ _ ∧ _))

def Emitted (encode : Name → Name) (msg : Msg) (body : List Lexeme) : Prop :=
  Sent encode msg body ∨ Actionless msg ∧ body = [msgSession msg.mngmnt8.peerid]

def msgBytes (msg : Msg) (body : List Lexeme) : List UInt8 := utf8 (msgText msg body)

structure LengthLaw (encode : Name → Name) (msg : Msg) (memory : Nat → UInt8) (len : UInt64) :
    Prop where
  accepted : ∀ after, msgSerializeRun encode msg memory len = .ok () after →
    after.offset < len.toNat ∧ Strlen after.memory after.offset ∧
      ∃ body, Emitted encode msg body ∧ before after.memory after.offset = msgBytes msg body
  full : ∀ body, Emitted encode msg body → len.toNat ≤ (msgBytes msg body).length →
    ∃ after, msgSerializeRun encode msg memory len = .error .containerFull after
  inside :
    match msgSerializeRun encode msg memory len with
    | .ok _ after | .error _ after => ∀ cell, len.toNat ≤ cell → after.memory cell = memory cell

def NulFree (text : Name) : Prop := ∀ c ∈ text, 0 < c.toNat

instance nulFreeDecidable (text : Name) : Decidable (NulFree text) :=
  decidable_of_iff (text.all (fun c => 0 < c.toNat) = true) (by simp [NulFree])

structure Msg.Terminated (msg : Msg) : Prop where
  strings : ∀ text ∈ msg.lock8.peerid.toList ++ msg.peerid16.toList ++ msg.lock16.element.toList ++
    msg.lock24.element.toList ++ msg.lock32.element.toList ++ msg.discover16.address.toList ++
    msg.mngmnt8.peerid.toList, NulFree text

theorem utf8_length (text : Name) : (utf8 text).length = byteLength text := by
  rw [utf8, List.length_flatMap, byteLength]
  simp only [String.length_utf8EncodeChar]

theorem utf8_append (front rest : Name) : utf8 (front ++ rest) = utf8 front ++ utf8 rest :=
  List.flatMap_append

theorem utf8_nonzero {text : Name} (free : NulFree text) : 0 ∉ utf8 text := by
  intro member
  obtain ⟨c, here, zero⟩ := List.mem_flatMap.mp member
  have positive : 0 < c.val.toNat := free c here
  have byte (value : Nat) (nonzero : value % 256 ≠ 0) : (0 : UInt8) ≠ UInt8.ofNat value := by
    intro same
    have codes := congrArg UInt8.toNat same
    rw [UInt8.toNat_ofNat', UInt8.toNat_zero] at codes
    exact nonzero codes.symm
  unfold String.utf8EncodeChar at zero
  dsimp only at zero
  split_ifs at zero <;> simp only [List.mem_cons, List.not_mem_nil, or_false] at zero
  · exact byte _ (by omega) zero
  · rcases zero with zero | zero <;> exact byte _ (by omega) zero
  · rcases zero with zero | zero | zero <;> exact byte _ (by omega) zero
  · rcases zero with zero | zero | zero | zero <;> exact byte _ (by omega) zero

def putLexemes (lexemes : List Lexeme) : Print Rc Unit :=
  puts .containerFull (lexemes.map fun lexeme => utf8 lexeme.text)

theorem putLexemes_cons (lexeme : Lexeme) (lexemes : List Lexeme) :
    putLexemes (lexeme :: lexemes) = putLexeme lexeme >>= fun _ => putLexemes lexemes := rfl

theorem putLexemes_nil : putLexemes [] = pure () := rfl

theorem putLexemes_one (lexeme : Lexeme) : putLexemes [lexeme] = putLexeme lexeme := by
  rw [putLexemes_cons, putLexemes_nil]
  exact bind_pure_unit

theorem putLexemes_two (first second : Lexeme) :
    putLexemes [first, second] = putLexeme first >>= fun _ => putLexeme second := by
  rw [putLexemes_cons, putLexemes_one]

theorem putLexemes_append (front rest : List Lexeme) :
    putLexemes (front ++ rest) = putLexemes front >>= fun _ => putLexemes rest := by
  rw [putLexemes, List.map_append, puts_append]
  rfl

theorem utf8_lexemes (lexemes : List Lexeme) :
    (lexemes.map fun lexeme => utf8 lexeme.text).flatten = utf8 (Markup.text lexemes) := by
  induction lexemes with
  | nil => rfl
  | cons lexeme lexemes ih =>
    rw [List.map_cons, List.flatten_cons, ih, Markup.text_cons, utf8_append]

theorem msgSerializeIntoLock8_eq (encode : Name → Name) (msg : Msg) {resource : Name}
    (named : msg.lock8.name = some resource) (typed : rsrcGetType resource ≠ .null) :
    msgSerializeIntoLock8 encode msg = putLexemes
      [msgSession msg.lock8.peerid, msgResource
          (msgLock8Properties encode msg.lock8 resource)] := by
  rw [putLexemes_two, msgSerializeIntoLock8, named, msgLock8Properties]
  cases type : rsrcGetType resource with
  | null => exact absurd type typed
  | simple | numeric | set | hier | sequence | timestamp => simp only [type]

theorem Sent.into {encode : Name → Name} {msg : Msg} {body : List Lexeme}
    (sent : Sent encode msg body) :
    msgSerializeIntoBody encode msg = putLexemes body := by
  cases sent with
  | lock8 verb step named typed =>
    simp only [msgSerializeIntoBody, verb, step, if_pos,
      msgSerializeIntoLock8_eq encode msg named typed]
  | lock16 verb step =>
    simp [msgSerializeIntoBody, verb, step, msgStepIncr, msgSerializeIntoLock16, putLexemes_two]
  | lock24 verb step =>
    simp [msgSerializeIntoBody, verb, step, msgStepIncr, msgSerializeIntoLock24, putLexemes_one]
  | lock32 verb step =>
    simp [msgSerializeIntoBody, verb, step, msgStepIncr, msgSerializeIntoLock32, putLexemes_one]
  | unlock8 verb step named =>
    simp [msgSerializeIntoBody, verb, step, msgSerializeIntoUnlock8, named, putLexemes_one]
  | ping verb step =>
    rcases step with step | step <;>
      simp [msgSerializeIntoBody, verb, step, msgStepIncr, msgSerializeIntoPing8,
        msgSerializeIntoPing16,
        putLexemes_nil]
  | discover8 verb step =>
    simp [msgSerializeIntoBody, verb, step, msgSerializeIntoDiscover8, putLexemes_nil]
  | discover16 verb step =>
    simp [msgSerializeIntoBody, verb, step, msgStepIncr, msgSerializeIntoDiscover16, putLexemes_one]
  | mngmnt8 verb step action =>
    rw [putLexemes_two]
    simp only [msgSerializeIntoBody, verb, step, if_pos, msgSerializeIntoMngmnt8, action, putLexeme,
      put, bind_assoc]

theorem lock8_unsent {encode : Name → Name} {msg : Msg} {cells after : Cells}
    (unsent : ∀ resource, msg.lock8.name = some resource → rsrcGetType resource = .null) :
    msgSerializeIntoLock8 encode msg cells ≠ .ok () after := by
  unfold msgSerializeIntoLock8
  cases named : msg.lock8.name with
  | none => exact nofun
  | some resource =>
    simp only [unsent resource named]
    change EStateM.bind (putLexeme _) _ cells ≠ _
    unfold EStateM.bind
    cases putLexeme (msgSession msg.lock8.peerid) cells with
    | ok value reached => exact nofun
    | error error reached => exact nofun

theorem emitted_of_into {encode : Name → Name} {msg : Msg} {cells after : Cells}
    (run : msgSerializeIntoBody encode msg cells = .ok () after) : ∃ body,
    Emitted encode msg body := by
  unfold msgSerializeIntoBody at run
  cases verb : msg.verb with
  | lock =>
    simp only [verb] at run
    split_ifs at run with first second third fourth
    · by_cases unsent : ∀ resource, msg.lock8.name = some resource → rsrcGetType resource = .null
      · exact absurd run (lock8_unsent unsent)
      · push Not at unsent
        obtain ⟨resource, named, typed⟩ := unsent
        exact ⟨_, .inl (.lock8 verb first named typed)⟩
    · exact ⟨_, .inl (.lock16 verb second)⟩
    · exact ⟨_, .inl (.lock24 verb third)⟩
    · exact ⟨_, .inl (.lock32 verb fourth)⟩
    · cases run
  | unlock =>
    simp only [verb] at run
    split_ifs at run with first
    · cases named : msg.unlock8.name with
      | none =>
        simp only [msgSerializeIntoUnlock8, named] at run
        cases run
      | some resource => exact ⟨_, .inl (.unlock8 verb first named)⟩
    · cases run
  | ping =>
    simp only [verb] at run
    split_ifs at run with first second
    · exact ⟨_, .inl (.ping verb (.inl first))⟩
    · exact ⟨_, .inl (.ping verb (.inr second))⟩
    · cases run
  | discover =>
    simp only [verb] at run
    split_ifs at run with first second
    · exact ⟨_, .inl (.discover8 verb first)⟩
    · exact ⟨_, .inl (.discover16 verb second)⟩
    · cases run
  | mngmnt =>
    simp only [verb] at run
    split_ifs at run with first
    · cases action : msg.mngmnt8.shutdown with
      | none => exact ⟨_, .inr ⟨⟨verb, first, action⟩, rfl⟩⟩
      | some immediate => exact ⟨_, .inl (.mngmnt8 verb first action)⟩
    · cases run
  | null | other value =>
    simp only [verb] at run
    cases run

section

variable {size : Nat} {memory : Nat → UInt8}

theorem putLexeme_keeps (lexeme : Lexeme) : Keeps (Inside size memory) (putLexeme lexeme) :=
  put_keeps _ _

theorem serializeIntoLock8_keeps (encode : Name → Name) (msg : Msg) :
    Keeps (Inside size memory) (msgSerializeIntoLock8 encode msg) := by
  unfold msgSerializeIntoLock8
  split
  · exact .throw _
  · refine (putLexeme_keeps _).bind fun _ => ?_
    split <;> first | exact putLexeme_keeps _ | exact .throw _

theorem serializeIntoMngmnt8_keeps (msg : Msg) :
    Keeps (Inside size memory) (msgSerializeIntoMngmnt8 msg) := by
  refine (print_keeps _).bind fun used => (advance_keeps _ used).bind fun _ => ?_
  split
  · exact (print_keeps _).bind (advance_keeps _)
  · exact (Keeps.pure used).bind (advance_keeps _)

theorem serializeIntoBody_keeps (encode : Name → Name) (msg : Msg) :
    Keeps (Inside size memory) (msgSerializeIntoBody encode msg) := by
  unfold msgSerializeIntoBody
  cases msg.verb with
  | lock =>
    dsimp only
    split_ifs
    · exact serializeIntoLock8_keeps encode msg
    · exact (putLexeme_keeps _).bind fun _ => putLexeme_keeps _
    · exact putLexeme_keeps _
    · exact putLexeme_keeps _
    · exact .throw _
  | unlock =>
    dsimp only
    split_ifs
    · unfold msgSerializeIntoUnlock8
      split
      · exact .throw _
      · exact putLexeme_keeps _
    · exact .throw _
  | ping =>
    dsimp only
    split_ifs
    · exact .pure _
    · exact .pure _
    · exact .throw _
  | discover =>
    dsimp only
    split_ifs
    · exact .pure _
    · exact putLexeme_keeps _
    · exact .throw _
  | mngmnt =>
    dsimp only
    split_ifs
    · exact serializeIntoMngmnt8_keeps msg
    · exact .throw _
  | null | other value => exact .throw _

theorem serializeInto_keeps (encode : Name → Name) (msg : Msg) :
    Keeps (Inside size memory) (msgSerializeInto encode msg) :=
  (putLexeme_keeps _).bind fun _ => (putLexeme_keeps _).bind fun _ =>
    (serializeIntoBody_keeps encode msg).bind fun _ => putLexeme_keeps _

end

theorem serializeRun_inside (encode : Name → Name) (msg : Msg) (memory : Nat → UInt8)
    (len : UInt64) :
    match msgSerializeRun encode msg memory len with
    | .ok _ after | .error _ after =>
    ∀ cell, len.toNat ≤ cell → after.memory cell = memory cell := by
  have started : Inside len.toNat memory ⟨memory, 0, len.toNat⟩ := ⟨by simp, fun _ _ => rfl⟩
  have kept := serializeInto_keeps encode msg _ started
  unfold msgSerializeRun
  split <;> next run =>
    rw [run] at kept
    exact kept.beyond

theorem Sent.serializeInto {encode : Name → Name} {msg : Msg} {body : List Lexeme}
    (sent : Sent encode msg body) :
    msgSerializeInto encode msg = putLexemes (msgDocument msg body).lexemes := by
  have lexemes : (msgDocument msg body).lexemes =
      .instruction msgDeclaration :: msgHeader msg :: (body ++ [.stop msgTagMsg]) := rfl
  rw [lexemes, putLexemes_cons, putLexemes_cons, putLexemes_append, putLexemes_one, ← sent.into]
  rfl

theorem nulFree_append {front rest : Name} : NulFree (front ++ rest) ↔ NulFree front ∧
    NulFree rest :=
  List.forall_mem_append

theorem nulFree_cons {c : Char} {text : Name} : NulFree (c :: text) ↔ 0 < c.toNat ∧ NulFree text :=
  List.forall_mem_cons

theorem nulFree_decimalText (value : Int) : NulFree (decimalText value) := by
  have digits (number : Nat) : NulFree (Nat.toDigits 10 number) := by
    intro digit member
    have bounds := Char.isDigit_iff_toNat.mp (toDigits_digits number digit member)
    have low : '0'.toNat = 48 := rfl
    omega
  rw [decimalText]
  split_ifs
  · exact nulFree_cons.mpr ⟨by decide, digits _⟩
  · exact digits _

def NulFreeProperty (property : Name × Name) : Prop := NulFree property.1 ∧ NulFree property.2

theorem NulFreeProperty.of {name value : Name} (named : NulFree name) (free : NulFree value) :
    NulFreeProperty (name, value) := ⟨named, free⟩

theorem nulFree_properties {properties : List (Name × Name)}
    (free : ∀ property ∈ properties, NulFreeProperty property) :
    NulFree (properties.flatMap Markup.propertyText) := by
  intro c member
  obtain ⟨property, listed, here⟩ := List.mem_flatMap.mp member
  obtain ⟨name, value⟩ := free property listed
  have whole : NulFree (Markup.propertyText property) := by
    simp only [Markup.propertyText, nulFree_cons, nulFree_append, name, value, true_and]
    decide
  exact whole c here

theorem nulFree_empty {tag : Name} {properties : List (Name × Name)} {blanks : Nat}
    (named : NulFree tag) (free : ∀ property ∈ properties, NulFreeProperty property) :
    NulFree (Lexeme.empty tag properties blanks).text := by
  have gap : NulFree (List.replicate blanks ' ') := by
    intro c member
    rw [List.eq_of_mem_replicate member]
    decide
  simp only [Lexeme.text, nulFree_cons, nulFree_append, named, nulFree_properties free, gap,
    true_and]
  decide

theorem nulFree_start {tag : Name} {properties : List (Name × Name)} (named : NulFree tag)
    (free : ∀ property ∈ properties, NulFreeProperty property) :
    NulFree (Lexeme.start tag properties).text := by
  simp only [Lexeme.text, nulFree_cons, nulFree_append, named, nulFree_properties free, true_and]
  decide

theorem nulFree_getD {text : Option Name} (free : ∀ value ∈ text, NulFree value) :
    NulFree (text.getD []) := by
  cases text with
  | none => exact nofun
  | some value => exact free value rfl

theorem nulFree_session {peerid : Option Name} (free : ∀ value ∈ peerid, NulFree value) :
    NulFree (msgSession peerid).text :=
  nulFree_empty (by decide) (List.forall_mem_singleton.mpr (.of (by decide) (nulFree_getD free)))

theorem nulFree_answer {answer : Answer} (free : ∀ value ∈ answer.element, NulFree value) :
    NulFree (msgAnswerTag answer).text := by
  have rc : NulFreeProperty (msgPropRc, decimalText answer.rc.code) :=
    .of (by decide) (nulFree_decimalText _)
  unfold msgAnswerTag
  cases element : answer.element with
  | none => exact nulFree_empty (by decide) (List.forall_mem_singleton.mpr rc)
  | some text =>
    exact nulFree_empty (by decide)
      (List.forall_mem_cons.mpr ⟨rc, List.forall_mem_singleton.mpr
        (.of (by decide) (free text element))⟩)

theorem nulFree_lock8 {encode : Name → Name} (encoded : ∀ text, NulFree (encode text))
    (lock8 : Lock8) (resource : Name) :
    ∀ property ∈ msgLock8Properties encode lock8 resource, NulFreeProperty property := by
  have name : NulFreeProperty (msgPropName, encode resource) := .of (by decide) (encoded resource)
  have mode (value : Int) : NulFreeProperty (msgPropMode, decimalText value) :=
    .of (by decide) (nulFree_decimalText _)
  have wait (value : Int) : NulFreeProperty (msgPropWait, decimalText value) :=
    .of (by decide) (nulFree_decimalText _)
  have quantity (value : Int) : NulFreeProperty (msgPropQuantity, decimalText value) :=
    .of (by decide) (nulFree_decimalText _)
  have create (value : Int) : NulFreeProperty (msgPropCreate, decimalText value) :=
    .of (by decide) (nulFree_decimalText _)
  have lifespan (value : Int) : NulFreeProperty (msgPropLifespan, decimalText value) :=
    .of (by decide) (nulFree_decimalText _)
  unfold msgLock8Properties
  dsimp only
  split <;> simp [name, mode, wait, quantity, create, lifespan]

theorem Emitted.nulFree {encode : Name → Name} (encoded : ∀ text, NulFree (encode text)) {msg : Msg}
    (terminated : msg.Terminated) {body : List Lexeme} (emitted : Emitted encode msg body) :
    ∀ lexeme ∈ body, NulFree lexeme.text := by
  have strings := terminated.strings
  simp only [List.mem_append, Option.mem_toList] at strings
  have shutdown (value : Int) : NulFree
      (Lexeme.empty msgTagShutdown [(msgPropImmediate, decimalText value)] 0).text :=
    nulFree_empty (by decide)
      (List.forall_mem_singleton.mpr (.of (by decide) (nulFree_decimalText _)))
  obtain sent | ⟨_, rfl⟩ := emitted
  · cases sent with
    | lock8 _ _ _ _ =>
      refine List.forall_mem_cons.mpr ⟨nulFree_session fun text member =>
        strings text (by tauto), ?_⟩
      exact List.forall_mem_singleton.mpr
        (nulFree_empty (by decide) (nulFree_lock8 encoded msg.lock8 _))
    | lock16 _ _ =>
      refine List.forall_mem_cons.mpr ⟨nulFree_session fun text member =>
        strings text (by tauto), ?_⟩
      exact List.forall_mem_singleton.mpr
        (nulFree_answer fun text member => strings text (by tauto))
    | lock24 _ _ =>
      exact List.forall_mem_singleton.mpr
        (nulFree_answer fun text member => strings text (by tauto))
    | lock32 _ _ =>
      exact List.forall_mem_singleton.mpr
        (nulFree_answer fun text member => strings text (by tauto))
    | unlock8 _ _ _ =>
      exact List.forall_mem_singleton.mpr (nulFree_empty (by decide) (List.forall_mem_cons.mpr
        ⟨.of (by decide) (encoded _), List.forall_mem_singleton.mpr
          (.of (by decide) (nulFree_decimalText _))⟩))
    | ping _ _ => exact nofun
    | discover8 _ _ => exact nofun
    | discover16 _ _ =>
      have address : NulFree (msg.discover16.address.getD []) :=
        nulFree_getD fun text member => strings text (by tauto)
      exact List.forall_mem_singleton.mpr (nulFree_empty (by decide) (List.forall_mem_cons.mpr
        ⟨.of (by decide) address, List.forall_mem_singleton.mpr
          (.of (by decide) (nulFree_decimalText _))⟩))
    | mngmnt8 _ _ _ =>
      refine List.forall_mem_cons.mpr ⟨nulFree_session fun text member =>
        strings text (by tauto), ?_⟩
      exact List.forall_mem_singleton.mpr (shutdown _)
  · exact List.forall_mem_singleton.mpr (nulFree_session fun text member => strings text (by tauto))

theorem Emitted.nonzero {encode : Name → Name} (encoded : ∀ text, NulFree (encode text)) {msg : Msg}
    (terminated : msg.Terminated) {body : List Lexeme} (emitted : Emitted encode msg body) :
    0 ∉ msgBytes msg body := by
  have lexemes : (msgDocument msg body).lexemes =
      .instruction msgDeclaration :: msgHeader msg :: (body ++ [.stop msgTagMsg]) := rfl
  have header : NulFree (msgHeader msg).text := nulFree_start (by decide) (by
    simp only [List.forall_mem_cons]
    exact ⟨.of (by decide) (nulFree_decimalText _), .of (by decide) (nulFree_decimalText _),
      .of (by decide) (nulFree_decimalText _), nofun⟩)
  apply utf8_nonzero
  intro c member
  rw [msgText, Markup.text] at member
  obtain ⟨lexeme, listed, here⟩ := List.mem_flatMap.mp member
  simp only [lexemes, List.mem_cons, List.mem_append, List.not_mem_nil, or_false] at listed
  rcases listed with rfl | rfl | inner | rfl
  · exact (show NulFree (Lexeme.instruction msgDeclaration).text by decide) c here
  · exact header c here
  · exact emitted.nulFree encoded terminated lexeme inner c here
  · exact (show NulFree (Lexeme.stop msgTagMsg).text by decide) c here

theorem msgBytes_eq (msg : Msg) (body : List Lexeme) :
    ((msgDocument msg body).lexemes.map fun lexeme => utf8 lexeme.text).flatten =
    msgBytes msg body :=
  utf8_lexemes _

theorem msgLexemes_ne (msg : Msg) (body : List Lexeme) :
    ((msgDocument msg body).lexemes.map fun lexeme => utf8 lexeme.text) ≠ [] :=
  List.cons_ne_nil _ _

theorem Sent.accepted {encode : Name → Name} (encoded : ∀ text, NulFree (encode text)) {msg : Msg}
    (terminated : msg.Terminated) {body : List Lexeme} (sent : Sent encode msg body)
    {memory : Nat → UInt8} {len : UInt64} {after : Cells}
    (run : msgSerializeRun encode msg memory len = .ok () after) :
    after.offset < len.toNat ∧ Strlen after.memory after.offset ∧
      before after.memory after.offset = msgBytes msg body := by
  rw [msgSerializeRun, sent.serializeInto] at run
  obtain ⟨printed, ended⟩ := puts_printed len.toNat_lt (msgLexemes_ne msg body) run
  have content : before after.memory after.offset = msgBytes msg body := by
    rw [printed.content, msgBytes_eq]
    rfl
  have length := congrArg List.length content
  have free := printed.free
  have room := printed.room
  rw [before_length] at length
  rw [msgBytes_eq] at free
  refine ⟨?_, strlen_of_nonzero ?_ ended, content⟩
  · dsimp only at free
    omega
  · rw [content]
    exact Emitted.nonzero encoded terminated (.inl sent)

theorem Sent.full {encode : Name → Name} {msg : Msg} {body : List Lexeme}
    (sent : Sent encode msg body) (memory : Nat → UInt8) {len : UInt64}
    (short : len.toNat ≤ (msgBytes msg body).length) :
    ∃ after, msgSerializeRun encode msg memory len = .error .containerFull after := by
  rw [msgSerializeRun, sent.serializeInto]
  refine puts_full Rc.containerFull len.toNat_lt (msgLexemes_ne msg body) ?_
  rw [msgBytes_eq]
  exact short

def actionlessTag (msg : Msg) : Lexeme := msgSession msg.mngmnt8.peerid

def actionlessFront (msg : Msg) : List Lexeme :=
  [.instruction msgDeclaration, msgHeader msg, actionlessTag msg]

structure Overcounted (msg : Msg) (len : UInt64) : Prop where
  actionless : Actionless msg
  room : (msgBytes msg [actionlessTag msg]).length + byteLength (actionlessTag msg).text < len.toNat
  short : ∀ lexeme ∈ actionlessFront msg, byteLength lexeme.text ≤ 2147483647

theorem Actionless.serializeInto (encode : Name → Name) {msg : Msg} (actionless : Actionless msg) :
    msgSerializeInto encode msg = putLexemes (actionlessFront msg) >>= fun _ =>
      advance .containerFull (usedChars (utf8 (actionlessTag msg).text)) >>= fun _ =>
        putLexeme (.stop msgTagMsg) := by
  obtain ⟨verb, step, action⟩ := actionless
  have twice : msgSerializeIntoBody encode msg = putLexeme (actionlessTag msg) >>= fun _ =>
      advance .containerFull (usedChars (utf8 (actionlessTag msg).text)) := by
    simp only [msgSerializeIntoBody, verb, step, if_pos, msgSerializeIntoMngmnt8, action]
    rfl
  rw [actionlessFront, putLexemes_cons, putLexemes_cons, putLexemes_one, msgSerializeInto, twice]
  simp only [bind_assoc]

theorem actionless_run (encode : Name → Name) {msg : Msg} (actionless : Actionless msg)
    (memory : Nat → UInt8) (len : UInt64) :
    (∃ after, msgSerializeRun encode msg memory len = .ok () after ∧
      ¬Strlen after.memory after.offset) ∧
        Overcounted msg len ∨
      (∃ after, msgSerializeRun encode msg memory len = .error .containerFull after) ∧
        ¬Overcounted msg len := by
  have small := len.toNat_lt
  have front : ((actionlessFront msg).map fun lexeme => utf8 lexeme.text) ≠ [] :=
    List.cons_ne_nil _ _
  have closing : (utf8 (Lexeme.stop msgTagMsg).text).length = 6 := by decide
  have tag : 0 < (utf8 (actionlessTag msg).text).length := by
    obtain ⟨rest, opens⟩ : ∃ rest, (actionlessTag msg).text = '<' :: rest := ⟨_, rfl⟩
    rw [utf8_length, opens, byteLength, List.map_cons, List.sum_cons]
    exact Nat.add_pos_left (Char.utf8Size_pos '<') _
  have whole : (msgBytes msg [actionlessTag msg]).length =
      (utf8 (Markup.text (actionlessFront msg))).length + 6 := by
    have lexemes : (msgDocument msg [actionlessTag msg]).lexemes =
        actionlessFront msg ++ [.stop msgTagMsg] := rfl
    rw [msgBytes, msgText, lexemes, Markup.text, List.flatMap_append, utf8_append,
      List.length_append, ← closing]
    rw [List.flatMap_cons, List.flatMap_nil, List.append_nil]
    rfl
  rw [msgSerializeRun, actionless.serializeInto encode]
  cases run : putLexemes (actionlessFront msg) ⟨memory, 0, len.toNat⟩ with
  | error error after =>
    refine .inr ⟨⟨after, ?_⟩, fun counted => ?_⟩
    · rw [bind_of_error run, puts_error small run]
    · let front := (actionlessFront msg).map fun lexeme => utf8 lexeme.text
      obtain ⟨reached, ok⟩ := @puts_ok _ Rc.containerFull front ⟨memory, 0, len.toNat⟩ small
        (List.forall_mem_map.mpr fun lexeme member => by
          rw [utf8_length]
          exact counted.short lexeme member)
        (by
          have room := counted.room
          rw [utf8_lexemes]
          dsimp only
          omega)
      cases ok.symm.trans run
  | ok value reached =>
    obtain ⟨printed, ended⟩ := puts_printed small front run
    have short := puts_short small run
    have content := congrArg List.length printed.content
    have free := printed.free
    rw [utf8_lexemes] at content free
    rw [List.length_append, before_length, before_length] at content
    dsimp only at content free
    have fits : (utf8 (actionlessTag msg).text).length ≤ 2147483647 :=
      short _ (List.mem_map_of_mem (by simp [actionlessFront]))
    have lengths : ∀ lexeme ∈ actionlessFront msg, byteLength lexeme.text ≤ 2147483647 := by
      intro lexeme member
      rw [← utf8_length]
      exact short _ (List.mem_map_of_mem member)
    rw [bind_of_ok run]
    by_cases tight : reached.free ≤ (utf8 (actionlessTag msg).text).length
    · have refused : advance Rc.containerFull (usedChars (utf8 (actionlessTag msg).text)) reached =
          .error .containerFull reached := by
        rw [advance, asSize_length fits, if_pos tight]
      refine .inr ⟨⟨reached, bind_of_error refused⟩, fun counted => ?_⟩
      have room := counted.room
      rw [← utf8_length] at room
      omega
    · have counted : advance Rc.containerFull (usedChars (utf8 (actionlessTag msg).text)) reached =
          .ok () { reached with
            offset := reached.offset + (utf8 (actionlessTag msg).text).length
            free := reached.free - (utf8 (actionlessTag msg).text).length } := by
        rw [advance, asSize_length fits, if_neg tight]
      rw [bind_of_ok counted, putLexeme, put_eq _ _ (by dsimp only; omega), closing]
      split_ifs with last
      · refine .inl ⟨⟨_, rfl, fun text => ?_⟩, actionless, ?_, lengths⟩
        · -- The terminator of the session tag is still there, before the offset.
          refine text.inner reached.offset (by dsimp only; omega) ?_
          dsimp only
          rw [snprintf_before _ (by omega), ended]
        · rw [← utf8_length]
          dsimp only at last
          omega
      · refine .inr ⟨⟨_, rfl⟩, fun counted => last ⟨?_, by omega⟩⟩
        have room := counted.room
        rw [← utf8_length] at room
        dsimp only
        omega

theorem Sent.agrees {encode : Name → Name} {msg : Msg} {body : List Lexeme}
    (sent : Sent encode msg body)
    (short : ∀ lexeme ∈ (msgDocument msg body).lexemes, byteLength lexeme.text ≤ 2147483647)
    (memory : Nat → UInt8) (len : UInt64) :
    match msgSerialize encode msg len.toNat with
    | .ok text => ∃ after, msgSerializeRun encode msg memory len = .ok () after ∧
        before after.memory after.offset = utf8 text
    | .error rc => ∃ after, msgSerializeRun encode msg memory len = .error rc after := by
  rw [msgSerialize_eq sent]
  split_ifs with fits
  · rw [msgSerializeRun, sent.serializeInto]
    rw [← utf8_length] at fits
    have lengths : ∀ text ∈ (msgDocument msg body).lexemes.map (fun lexeme => utf8 lexeme.text),
        text.length ≤ 2147483647 := by
      refine List.forall_mem_map.mpr fun lexeme member => ?_
      rw [utf8_length]
      exact short lexeme member
    obtain ⟨after, run⟩ := @puts_ok _ Rc.containerFull _ ⟨memory, 0, len.toNat⟩ len.toNat_lt lengths
        (by
      rw [msgBytes_eq]
      exact fits)
    refine ⟨after, run, ?_⟩
    rw [(puts_printed len.toNat_lt (msgLexemes_ne msg body) run).1.content, msgBytes_eq]
    rfl
  · rw [← utf8_length, not_lt] at fits
    exact sent.full memory fits

theorem emitted_of_run {encode : Name → Name} {msg : Msg} {memory : Nat → UInt8} {len : UInt64}
    {after : Cells} (run : msgSerializeRun encode msg memory len = .ok () after) : ∃ body,
    Emitted encode msg body := by
  obtain ⟨_, declared, _, run⟩ := Printing.ok_of_bind run
  obtain ⟨_, opened, _, run⟩ := Printing.ok_of_bind run
  obtain ⟨_, filled, body, _⟩ := Printing.ok_of_bind run
  exact emitted_of_into body

theorem lengthLaw_iff (encode : Name → Name) (encoded : ∀ text, NulFree (encode text)) (msg : Msg)
    (terminated : msg.Terminated) (memory : Nat → UInt8) (len : UInt64) :
    LengthLaw encode msg memory len ↔ ¬Overcounted msg len := by
  constructor
  · intro law counted
    obtain ⟨⟨after, run, text⟩, _⟩ | ⟨_, fine⟩ :=
      actionless_run encode counted.actionless memory len
    · exact text (law.accepted after run).2.1
    · exact fine counted
  · intro fine
    refine ⟨?_, ?_, serializeRun_inside encode msg memory len⟩
    · intro after run
      obtain ⟨body, emitted⟩ := emitted_of_run run
      obtain sent | ⟨actionless, _⟩ := emitted
      · obtain ⟨shorter, text, content⟩ := sent.accepted encoded terminated run
        exact ⟨shorter, text, body, .inl sent, content⟩
      · obtain ⟨_, counted⟩ | ⟨⟨other, refused⟩, _⟩ := actionless_run encode actionless memory len
        · exact absurd counted fine
        · cases run.symm.trans refused
    · intro body emitted short
      obtain sent | ⟨actionless, _⟩ := emitted
      · exact sent.full memory short
      · obtain ⟨_, counted⟩ | ⟨refused, _⟩ := actionless_run encode actionless memory len
        · exact absurd counted fine
        · exact refused

theorem serialize_length_iff (encode : Name → Name) (encoded : ∀ text, NulFree (encode text))
    (msg : Msg) (terminated : msg.Terminated) (memory : Nat → UInt8) (len : UInt64) :
    LengthLaw encode msg memory len ↔ ¬Overcounted msg len :=
  lengthLaw_iff encode encoded msg terminated memory len

theorem base64_nulFree (text : Name) : NulFree (base64Encode text) := by
  intro symbol member
  rcases Base64.encode_symbolic _ symbol member with letter | rfl | rfl | rfl
  · have bounds := alphanum_bounds letter
    omega
  · decide
  · decide
  · decide

def shutdownRequest (shutdown : Option Int) : Msg :=
  { msgInit with
    level := msgLevel
    verb := .mngmnt
    step := msgStepIncr
    body := Mngmnt8.body .heap ⟨some ['i', 'd'], shutdown⟩ }

theorem shutdownRequest_terminated (shutdown : Option Int) :
    (shutdownRequest shutdown).Terminated where
  strings := by
    cases shutdown <;>
      · show ∀ text ∈ List.replicate 4 ['i', 'd'], NulFree text
        decide

theorem serialize_length_iff_shutdown :
    LengthLaw base64Encode (shutdownRequest (some 1)) (fun _ => 255) 512 ↔
      ¬Overcounted (shutdownRequest (some 1)) 512 :=
  serialize_length_iff base64Encode base64_nulFree (shutdownRequest (some 1))
    (shutdownRequest_terminated _) (fun _ => 255) 512

-- The 22 bytes of the session tag are counted twice: the length is 22 more than that of the text.
theorem actionless_request_overcounted :
    ¬LengthLaw base64Encode (shutdownRequest none) (fun _ => 255) 512 ∧
      ∃ after, msgSerializeRun base64Encode (shutdownRequest none) (fun _ => 255) 512 = .ok
        () after ∧
        after.offset = 122 ∧ after.memory 94 = 0 := by
  have counted : Overcounted (shutdownRequest none) 512 := ⟨by decide, by decide, by decide⟩
  refine ⟨?_, _, rfl, by decide, by decide⟩
  rw [lengthLaw_iff _ base64_nulFree _ (shutdownRequest_terminated none), not_not]
  exact counted

end Flom
