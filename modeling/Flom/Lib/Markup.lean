import Flom.Lib.Lists
import Mathlib.Data.List.Basic
import Mathlib.Data.List.TakeDrop
import Mathlib.Data.List.TakeWhile

set_option autoImplicit false

namespace Markup

open Lists

abbrev Text := List Char

inductive Lexeme where
  | instruction (content : Text)
  | start (tag : Text) (properties : List (Text × Text))
  | empty (tag : Text) (properties : List (Text × Text)) (blanks : Nat)
  | stop (tag : Text)
deriving DecidableEq, Repr

inductive Event where
  | start (tag : Text) (properties : List (Text × Text))
  | stop (tag : Text)
deriving DecidableEq, Repr

def propertyText (property : Text × Text) : Text :=
  ' ' :: (property.1 ++ '=' :: '"' :: (property.2 ++ ['"']))

def Lexeme.text : Lexeme → Text
  | .instruction content => '<' :: '?' :: (content ++ ['?', '>'])
  | .start tag properties => '<' :: (tag ++ properties.flatMap propertyText ++ ['>'])
  | .empty tag properties blanks =>
    '<' :: (tag ++ properties.flatMap propertyText ++ List.replicate blanks ' ' ++ ['/', '>'])
  | .stop tag => '<' :: '/' :: (tag ++ ['>'])

def Lexeme.events : Lexeme → List Event
  | .instruction _ => []
  | .start tag properties => [.start tag properties]
  | .empty tag properties _ => [.start tag properties, .stop tag]
  | .stop tag => [.stop tag]

def text (lexemes : List Lexeme) : Text := lexemes.flatMap Lexeme.text

theorem text_cons (lexeme : Lexeme) (lexemes : List Lexeme) :
    text (lexeme :: lexemes) = lexeme.text ++ text lexemes :=
  List.flatMap_cons

def events (lexemes : List Lexeme) : List Event := lexemes.flatMap Lexeme.events

def nameSymbol (symbol : Char) : Bool :=
  symbol.isAlphanum || symbol = '_' || symbol = '-' || symbol = '.' || symbol = ':'

def special : List Char := ['<', '>', '&', '"', '\'']

def control (symbol : Char) : Bool := symbol.toNat < 32 || 127 ≤ symbol.toNat && symbol.toNat < 160

def valueSymbol (symbol : Char) : Bool := !control symbol && symbol ∉ special

structure IsName (name : Text) : Prop where
  nonempty : name ≠ []
  symbols : ∀ symbol ∈ name, nameSymbol symbol = true

def IsValue (value : Text) : Prop := ∀ symbol ∈ value, valueSymbol symbol = true

instance (name : Text) : Decidable (IsName name) :=
  decidable_of_iff ((!name.isEmpty && name.all nameSymbol) = true) (by
    rw [Bool.and_eq_true, List.all_eq_true, Bool.not_eq_true', List.isEmpty_eq_false_iff]
    exact ⟨fun both => ⟨both.1, both.2⟩, fun isName => ⟨isName.nonempty, isName.symbols⟩⟩)

instance (value : Text) : Decidable (IsValue value) :=
  decidable_of_iff (value.all valueSymbol = true) List.all_eq_true

structure AreProperties (properties : List (Text × Text)) : Prop where
  names : ∀ property ∈ properties, IsName property.1
  values : ∀ property ∈ properties, IsValue property.2
  distinct : (properties.map Prod.fst).Nodup

def Lexeme.Plain : Lexeme → Prop
  | .instruction content => '?' ∉ content
  | .start tag properties => IsName tag ∧ AreProperties properties
  | .empty tag properties _ => IsName tag ∧ AreProperties properties
  | .stop tag => IsName tag

def nested : List Text → List Event → Bool
  | opened, [] => opened = []
  | opened, .start tag _ :: rest => nested (tag :: opened) rest
  | [], .stop _ :: _ => false
  | last :: opened, .stop tag :: rest => tag = last && nested opened rest

structure Document where
  declaration : Text
  root : Text
  properties : List (Text × Text)
  body : List Lexeme

def Document.lexemes (document : Document) : List Lexeme :=
  .instruction document.declaration :: .start document.root document.properties ::
    (document.body ++ [.stop document.root])

structure Document.Proper (document : Document) : Prop where
  plain : ∀ lexeme ∈ document.lexemes, lexeme.Plain
  nested : nested [] (events document.body) = true

def readProperties : Nat → Text → Option (List (Text × Text) × Text)
  | fuel + 1, ' ' :: text =>
    match text.span nameSymbol with
    | ([], _) => readProperties fuel text
    | (name, '=' :: '"' :: rest) =>
      match rest.span valueSymbol with
      | (value, '"' :: rest) =>
        (readProperties fuel rest).map fun (properties, left) => ((name, value) :: properties, left)
      | _ => none
    | _ => none
  | 0, ' ' :: _ => none
  | _, text => some ([], text)

def readLexeme : Text → Option (List Event × Text)
  | '<' :: '?' :: text =>
    match text.span (· ≠ '?') with
    | (_, '?' :: '>' :: rest) => some ([], rest)
    | _ => none
  | '<' :: '/' :: text =>
    match text.span nameSymbol with
    | (tag, '>' :: rest) => some ([.stop tag], rest)
    | _ => none
  | '<' :: text =>
    match readProperties text.length (text.span nameSymbol).2 with
    | some (properties, '>' :: rest) => some ([.start (text.span nameSymbol).1 properties], rest)
    | some (properties, '/' :: '>' :: rest) =>
      some ([.start (text.span nameSymbol).1 properties, .stop (text.span nameSymbol).1], rest)
    | _ => none
  | _ => none

def readEvents : Nat → Text → Option (List Event)
  | _, [] => some []
  | 0, _ => none
  | fuel + 1, text =>
    match readLexeme text with
    | some (found, rest) => (readEvents fuel rest).map (found ++ ·)
    | none => none

def read (text : Text) : Option (List Event) := (readEvents text.length text).filter (nested [])

theorem IsName.head {name : Text} (isName : IsName name) :
    ∃ symbol rest, name = symbol :: rest ∧ nameSymbol symbol = true := by
  cases name with
  | nil => exact absurd rfl isName.nonempty
  | cons symbol rest => exact ⟨symbol, rest, rfl, isName.symbols symbol List.mem_cons_self⟩

theorem AreProperties.tail {property : Text × Text} {properties : List (Text × Text)}
    (are : AreProperties (property :: properties)) : AreProperties properties where
  names := fun other member => are.names other (List.mem_cons_of_mem _ member)
  values := fun other member => are.values other (List.mem_cons_of_mem _ member)
  distinct := (List.nodup_cons.mp are.distinct).2

structure TagEnd (blanks : Nat) (closing : Text) : Prop where
  closes : ∀ symbol ∈ closing.head?, symbol ≠ ' ' ∧ nameSymbol symbol = false
  closed : closing ≠ []

theorem readProperties_blanks {blanks : Nat} {closing : Text} (ends : TagEnd blanks closing)
    (fuel : Nat) (enough : blanks ≤ fuel) : readProperties fuel
    (List.replicate blanks ' ' ++ closing) = some ([], closing) := by
  induction blanks generalizing fuel with
  | zero =>
    obtain ⟨symbol, rest, rfl⟩ := List.exists_cons_of_ne_nil ends.closed
    have other := (ends.closes symbol rfl).1
    cases fuel <;> simp [readProperties, other]
  | succ blanks ih =>
    obtain ⟨fuel, rfl⟩ : ∃ fewer, fuel = fewer + 1 := ⟨fuel - 1, by omega⟩
    have none : (List.replicate blanks ' ' ++ closing).span nameSymbol =
        ([], List.replicate blanks ' ' ++ closing) := by
      refine span_until _ (fun _ member => absurd member List.not_mem_nil) ?_
      cases blanks with
      | zero => exact fun symbol member => (ends.closes symbol member).2
      | succ blanks => simp [List.replicate_succ, nameSymbol]
    rw [List.replicate_succ, List.cons_append, readProperties, none]
    exact ih ⟨ends.closes, ends.closed⟩ fuel (by omega)

theorem readProperties_text {properties : List (Text × Text)} {blanks : Nat} {closing : Text}
    (are : AreProperties properties) (ends : TagEnd blanks closing) (fuel : Nat)
    (enough : properties.length + blanks ≤ fuel) :
    readProperties fuel
        (properties.flatMap propertyText ++ (List.replicate blanks ' ' ++ closing)) =
      some (properties, closing) := by
  induction properties generalizing fuel with
  | nil =>
    rw [List.length_nil, Nat.zero_add] at enough
    exact readProperties_blanks ends fuel enough
  | cons property properties ih =>
    rw [List.length_cons] at enough
    obtain ⟨fuel, rfl⟩ : ∃ fewer, fuel = fewer + 1 := ⟨fuel - 1, by omega⟩
    obtain ⟨name, value⟩ := property
    have isName : IsName name := are.names (name, value) List.mem_cons_self
    have isValue : IsValue value := are.values (name, value) List.mem_cons_self
    obtain ⟨symbol, others, rfl, _⟩ := isName.head
    have named := span_until ('=' :: '"' :: (value ++ '"' :: (properties.flatMap propertyText ++
      (List.replicate blanks ' ' ++ closing)))) isName.symbols (by simp [nameSymbol])
    have valued := span_until ('"' :: (properties.flatMap propertyText ++
      (List.replicate blanks ' ' ++ closing))) isValue (by simp [valueSymbol, special])
    have rest := ih are.tail fuel (by omega)
    simp only [List.flatMap_cons, propertyText, List.cons_append, List.append_assoc,
      List.nil_append,
      readProperties] at named ⊢
    simp only [named, valued, rest, Option.map_some]

theorem properties_length_le (properties : List (Text × Text)) :
    properties.length ≤ (properties.flatMap propertyText).length := by
  induction properties with
  | nil => exact Nat.le_refl _
  | cons property properties ih =>
    rw [List.flatMap_cons, List.length_append, List.length_cons, propertyText, List.length_cons]
    omega

theorem readLexeme_tag {tag : Text} {properties : List (Text × Text)} (blanks : Nat)
    (closing : Text) (isName : IsName tag) (are : AreProperties properties)
    (ends : TagEnd blanks closing) :
    let text := tag ++ (properties.flatMap propertyText ++ (List.replicate blanks ' ' ++ closing))
    (text.span nameSymbol).1 = tag ∧
      readProperties text.length (text.span nameSymbol).2 = some (properties, closing) := by
  intro text
  have parted : text.span nameSymbol = (tag, properties.flatMap propertyText ++
      (List.replicate blanks ' ' ++ closing)) := by
    refine span_until _ isName.symbols ?_
    cases properties with
    | cons property properties => simp [propertyText, nameSymbol]
    | nil =>
      cases blanks with
      | succ blanks => simp [List.replicate_succ, nameSymbol]
      | zero => exact fun symbol member => (ends.closes symbol member).2
  have inside := properties_length_le properties
  rw [parted]
  refine ⟨rfl, readProperties_text are ends _ ?_⟩
  simp only [text, List.length_append, List.length_replicate]
  omega

theorem readLexeme_open {tag : Text} (isName : IsName tag) (rest : Text) :
    readLexeme ('<' :: (tag ++ rest)) =
      match readProperties (tag ++ rest).length ((tag ++ rest).span nameSymbol).2 with
      | some (properties, '>' :: rest') =>
        some ([.start ((tag ++ rest).span nameSymbol).1 properties], rest')
      | some (properties, '/' :: '>' :: rest') =>
        some ([.start ((tag ++ rest).span nameSymbol).1 properties,
          .stop ((tag ++ rest).span nameSymbol).1], rest')
      | _ => none := by
  obtain ⟨symbol, others, rfl, named⟩ := isName.head
  rw [List.cons_append, readLexeme]
  · rintro _ same
    rw [(List.cons.inj same).1] at named
    exact absurd named (by decide)
  · rintro _ same
    rw [(List.cons.inj same).1] at named
    exact absurd named (by decide)

theorem readLexeme_text {lexeme : Lexeme} (plain : lexeme.Plain) (rest : Text) :
    readLexeme (lexeme.text ++ rest) = some (lexeme.events, rest) := by
  cases lexeme with
  | instruction content =>
    have inside : ∀ symbol ∈ content, decide (symbol ≠ '?') = true := by
      intro symbol member
      exact decide_eq_true fun same => plain (same ▸ member)
    have parted := span_until ('?' :: '>' :: rest) inside (by simp)
    simp only [Lexeme.text, List.cons_append, List.append_assoc, List.nil_append, readLexeme]
    rw [parted]
    rfl
  | stop tag =>
    have parted := span_until ('>' :: rest) plain.symbols (by simp [nameSymbol])
    simp only [Lexeme.text, List.cons_append, List.append_assoc, List.nil_append, readLexeme]
    rw [parted]
    rfl
  | start tag properties =>
    obtain ⟨isName, are⟩ := plain
    have read := readLexeme_tag 0 ('>' :: rest) isName are ⟨by simp [nameSymbol], by simp⟩
    simp only [Lexeme.text, List.cons_append, List.append_assoc, List.nil_append,
      List.replicate_zero] at read ⊢
    rw [readLexeme_open isName, read.1, read.2]
    rfl
  | empty tag properties blanks =>
    obtain ⟨isName, are⟩ := plain
    have read := readLexeme_tag blanks ('/' :: '>' :: rest) isName are
      ⟨by simp [nameSymbol], by simp⟩
    simp only [Lexeme.text, List.cons_append, List.append_assoc, List.nil_append] at read ⊢
    rw [readLexeme_open isName, read.1, read.2]
    rfl

theorem Lexeme.text_length (lexeme : Lexeme) : 1 ≤ lexeme.text.length := by
  cases lexeme <;> simp [Lexeme.text]

theorem readEvents_text {lexemes : List Lexeme} (plain : ∀ lexeme ∈ lexemes, lexeme.Plain)
    (fuel : Nat) (enough : (text lexemes).length ≤ fuel) :
    readEvents fuel (text lexemes) = some (events lexemes) := by
  induction lexemes generalizing fuel with
  | nil => cases fuel <;> rfl
  | cons lexeme lexemes ih =>
    have long := lexeme.text_length
    rw [text_cons, List.length_append] at enough
    obtain ⟨fuel, rfl⟩ : ∃ fewer, fuel = fewer + 1 := ⟨fuel - 1, by omega⟩
    have first := readLexeme_text (plain lexeme List.mem_cons_self) (text lexemes)
    have others := ih (fun other member => plain other (List.mem_cons_of_mem _ member)) fuel
      (by omega)
    have begun : text (lexeme :: lexemes) ≠ [] := by
      intro empty
      rw [text_cons, List.append_eq_nil_iff] at empty
      rw [empty.1] at long
      exact absurd long (by decide)
    rw [text_cons] at begun ⊢
    rw [readEvents, first]
    · dsimp only
      rw [others]
      rfl
    · exact begun

theorem nested_append {inner : List Event} (outer : List Event) {opened : List Text}
    (around : List Text) (closed : nested opened inner = true) :
    nested (opened ++ around) (inner ++ outer) = nested around outer := by
  induction inner generalizing opened with
  | nil =>
    have empty : opened = [] := of_decide_eq_true closed
    rw [empty]
    rfl
  | cons event inner ih =>
    cases event with
    | start tag properties => exact ih closed
    | stop tag =>
      cases opened with
      | nil => exact absurd closed Bool.false_ne_true
      | cons last opened =>
        have both := Bool.and_eq_true_iff.mp closed
        simp only [List.cons_append, nested, ih both.2, of_decide_eq_true both.1, decide_true,
          Bool.true_and]

theorem Document.Proper.nested_events {document : Document} (proper : document.Proper) :
    Markup.nested [] (events document.lexemes) = true := by
  have inside := nested_append [.stop document.root] [document.root] proper.nested
  simp only [Document.lexemes, events, List.flatMap_cons, List.flatMap_append, List.flatMap_nil,
    Lexeme.events,
    List.nil_append, List.append_nil, List.cons_append] at inside ⊢
  rw [Markup.nested, inside]
  simp [Markup.nested]

theorem read_document {document : Document} (proper : document.Proper) :
    read (text document.lexemes) = some (events document.lexemes) := by
  rw [read, readEvents_text proper.plain _ (Nat.le_refl _), Option.filter_some,
    if_pos proper.nested_events]

end Markup
