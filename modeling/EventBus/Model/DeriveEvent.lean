import EventBus.Model.EventFlow
import EventBus.Model.SubjectTemplate

/-!
# Deriving an event

`#[derive(Event)]` reads the attribute and the fields of a struct and generates its `impl Event`,
or stops with the first thing that is wrong.  What `syn` makes of the tokens is given: an item of
an attribute that it cannot read stands for its error.

`EventImpl.eventTrait` is what the generated code does with the values of the struct.
-/

set_option autoImplicit false

namespace EventBus.Model

/-! ## What is derived from -/

/-- What stands after the name of an item of an attribute. -/
inductive MetaValue where
  /-- `= "..."` -/
  | str (value : String)
  /-- `=` and a literal that is no string -/
  | otherLit
  /-- Something that `syn` does not take for `=` and a literal. -/
  | unread (error : String)

structure NestedMeta where
  path : List String
  value : MetaValue

/-- An attribute and the items in its parentheses. -/
structure Attribute where
  path : List String
  items : List (Except String NestedMeta)

def Attribute.isEvent (attr : Attribute) : Bool := decide (attr.path = ["event"])

inductive FieldType where
  | path (qself : Bool) (segments : List String)
  | other

structure Field where
  ident : String
  ty : FieldType

inductive DeriveData where
  | named (fields : List Field)
  /-- A struct without named fields. -/
  | unnamed
  /-- An enum or a union. -/
  | notStruct

structure DeriveInput where
  ident : String
  attrs : List Attribute
  data : DeriveData

/-! ## The macro -/

/-- SRC: event.rs:15-19 -/
structure ParsedEventAttrs where
  subjectTemplate : String
  aggregate : Option String

/-- The items of the attribute, one after another; a later one replaces an earlier one.
SRC: event.rs:25-46 -/
def parseItems : List (Except String NestedMeta) → Option String → Option String →
    Except String (Option String × Option String)
  | [], subjectTemplate, aggregate => .ok (subjectTemplate, aggregate)
  | .error e :: _, _, _ => .error e
  | .ok item :: items, subjectTemplate, aggregate =>
    if item.path = ["subject"] then
      match item.value with
      | .str value => parseItems items (some value) aggregate
      | .otherLit => .error "subject must be a string literal"
      | .unread e => .error e
    else if item.path = ["aggregate"] then
      match item.value with
      | .str value => parseItems items subjectTemplate (some value)
      | .otherLit => .error "aggregate must be a string literal"
      | .unread e => .error e
    else .error "unknown event attribute key"

/-- SRC: event.rs:21-57 -/
def parseEventAttrs (attr : Attribute) : Except String ParsedEventAttrs :=
  match parseItems attr.items none none with
  | .error e => .error e
  | .ok (none, _) => .error "subject = \"...\" is required in #[event(...)]"
  | .ok (some subjectTemplate, aggregate) => .ok ⟨subjectTemplate, aggregate⟩

/-- SRC: event.rs:135-159 -/
def isMessageIdField (field : Field) : Bool :=
  match field.ty with
  | .other => false
  | .path qself segments =>
    if qself then false
    else
      match segments.reverse with
      | [] => false
      | last :: before =>
        if last ≠ "MessageId" then false
        else
          match before with
          | [] => true
          | crate :: _ => decide (crate = "bus_core")

/-- The `impl Event` of a struct.  Its `message_id` is the field `id`. -/
structure EventImpl where
  typeName : String
  subjectExpression : SubjectExpression
  aggregateType : String
  deriving DecidableEq

/-- The fields of a struct with named fields.
SRC: event.rs:74-90 -/
def DeriveData.namedFields : DeriveData → Except String (List Field)
  | .named fields => .ok fields
  | .unnamed => .error "#[derive(Event)] requires a struct with named fields"
  | .notStruct => .error "#[derive(Event)] can only be applied to structs"

/-- SRC: event.rs:60-67 -/
def findEventAttribute (attrs : List Attribute) : Except String Attribute :=
  match attrs.find? Attribute.isEvent with
  | some attr => .ok attr
  | none => .error "missing #[event(subject = \"...\")] attribute"

/-- SRC: event.rs:92-108 -/
def findIdField (fields : List Field) : Except String Field :=
  match fields.find? fun field => decide (field.ident = "id") with
  | none => .error "#[derive(Event)] requires a field named `id: bus_core::MessageId`"
  | some idField =>
    if isMessageIdField idField then .ok idField
    else .error "#[derive(Event)] requires `id` to have type `bus_core::MessageId`"

/-- SRC: event.rs:59-133 -/
def generateEventImpl (parseIdent : String → Option String) (deriveInput : DeriveInput) :
    Except String EventImpl := do
  let eventAttribute ← findEventAttribute deriveInput.attrs
  let parsed ← parseEventAttrs eventAttribute
  let fields ← deriveInput.data.namedFields
  let _ ← findIdField fields
  let subjectExpression ←
    buildSubjectExpression parseIdent (fields.map Field.ident) parsed.subjectTemplate
  pure ⟨deriveInput.ident, subjectExpression, parsed.aggregate.getD "default"⟩

/-! ## The generated code -/

/-- A value of the struct: its id, and what its fields print as. -/
structure EventValue (U : Type) [UuidCrate U] where
  id : MessageId U
  display : String → String
  display_id : display "id" = id.toString

/-- The generated methods, with the serialization of the struct.
SRC: event.rs:118-132 -/
def EventImpl.eventTrait {U : Type} [UuidCrate U] (impl : EventImpl)
    (toVec : EventValue U → Except String Bytes) : EventTrait U (EventValue U) where
  subject event := (impl.subjectExpression.eval event.display).getD ""
  messageId event := event.id
  toVec := toVec

end EventBus.Model
